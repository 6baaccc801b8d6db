import Masqr.Queue.Order
import Masqr.Queue.Starvation

/-!
A new flow goes ahead of the backlog.

A bucket that is filed into while on no list is fresh and has credit, so it is come to before any
that is backlogged. What keeps it ahead is that the packet which made it fresh is the oldest it
holds: when its turn comes, that packet is the one that goes.
-/

namespace Masqr.Queue

open Masqr.Lib

/-- The packet waits in the bucket. -/
def Holds (q : Inner) (i : Bucket) (seq : ℕ) : Prop := ∃ x ∈ (q.flows i).packets, x.seq = seq

lemma Holds.of_sublist {q q' : Inner} {i : Bucket} {seq : ℕ} (h : Holds q' i seq)
    (hsub : (q'.flows i).packets.Sublist (q.flows i).packets) : Holds q i seq := by
  obtain ⟨x, hx, hseq⟩ := h
  exact ⟨x, hsub.subset hx, hseq⟩

/-- Each bucket holds its own packets, in the order of arrival. -/
structure Tidy (q : Inner) : Prop where
  filed : ∀ i, ∀ x ∈ (q.flows i).packets, filedIn q.arrived x.seq = some i
  sorted : ∀ i, ((q.flows i).packets.map Queued.seq).Pairwise (· < ·)

lemma InOrder.tidy {s : Sim} (h : InOrder s) : Tidy s.inner :=
  ⟨h.filed, fun i => (h.line i).sublist (List.sublist_append_right _ _)⟩

lemma Tidy.of_sublist {q q' : Inner} (h : Tidy q) (harrived : q'.arrived = q.arrived)
    (hsub : ∀ i, (q'.flows i).packets.Sublist (q.flows i).packets) : Tidy q' := by
  refine ⟨fun i x hx => ?_, fun i => (h.sorted i).sublist ((hsub i).map Queued.seq)⟩
  rw [harrived]
  exact h.filed i x ((hsub i).subset hx)

/-- The bucket is fresh and has credit, the packet is the oldest it holds, and the buckets behind it
are backlogged. -/
structure Leading (i : Bucket) (seq : ℕ) (behind : List Bucket) (q : Inner) : Prop where
  fresh : i ∈ q.fresh
  credit : 0 < (q.flows i).deficit
  oldest : ∀ x ∈ (q.flows i).packets, seq ≤ x.seq
  behind : behind ⊆ q.backlogged

namespace Leading

variable {q q' : Inner} {i k : Bucket} {seq : ℕ} {behind : List Bucket} {wasFresh : Bool}
variable {now : Instant} {x : Queued}

lemma drained (h : Leading i seq behind q) (hq : Drained q q') : Leading i seq behind q' where
  fresh := hq.fresh ▸ h.fresh
  credit := (hq.deficit i).symm ▸ h.credit
  oldest x hx := h.oldest x ((hq.packets i).subset hx)
  behind := hq.backlogged ▸ h.behind

lemma note (h : Leading i seq behind q) (e : Event) : Leading i seq behind (q.note e) :=
  ⟨h.fresh, h.credit, h.oldest, h.behind⟩

/-- While the bucket leads, the bucket whose turn it is is a fresh one. -/
lemma front (h : Leading i seq behind q) (hfront : q.front = some (k, wasFresh)) :
    wasFresh = true ∧ ∃ rest, q.fresh = k :: rest := by
  rcases Inner.front_cases hfront with hfresh | ⟨-, hempty, -⟩
  · exact hfresh
  · have hmem := h.fresh
    rw [hempty] at hmem
    cases hmem

/-- A fresh bucket is none of those behind. -/
lemma front_notMem (h : Leading i seq behind q) (hl : Listed q)
    (hfront : q.front = some (k, wasFresh)) : k ∉ behind := by
  obtain ⟨-, rest, hfresh⟩ := h.front hfront
  intro hk
  have honce := hl.once k
  have hfirst : 0 < q.fresh.count k := by
    rw [hfresh]
    exact List.count_pos_iff.2 List.mem_cons_self
  have hsecond : 0 < q.backlogged.count k := List.count_pos_iff.2 (h.behind hk)
  rw [List.count_append] at honce
  split_ifs at honce <;> omega

/-- The other buckets keep their places when the one whose turn it is comes off its list. -/
lemma popList (h : Leading i seq behind q) (hfront : q.front = some (k, wasFresh)) (hk : k ≠ i) :
    i ∈ (q.popList wasFresh).fresh ∧ behind ⊆ (q.popList wasFresh).backlogged := by
  obtain ⟨rfl, rest, hfresh⟩ := h.front hfront
  have hmem := h.fresh
  rw [hfresh] at hmem
  refine ⟨?_, h.behind⟩
  simpa [Inner.popList, hfresh] using (List.mem_cons.1 hmem).resolve_left hk.symm

lemma rotate (h : Leading i seq behind q) (hfront : q.front = some (k, wasFresh))
    (hdeficit : (q.flows k).deficit ≤ 0) : Leading i seq behind (q.rotate k wasFresh) := by
  have hk : k ≠ i := fun hki => by
    have hcredit := h.credit
    rw [← hki] at hcredit
    omega
  obtain ⟨hfresh, hbehind⟩ := h.popList hfront hk
  obtain ⟨hlist, hlist'⟩ := Inner.rotate_lists q k wasFresh
  have hflow : (q.rotate k wasFresh).flows i = q.flows i := by
    rw [Inner.rotate_flows, Function.update_of_ne hk.symm]
  refine ⟨hlist ▸ hfresh, hflow ▸ h.credit, hflow ▸ h.oldest, ?_⟩
  rw [hlist']
  exact List.subset_append_of_subset_left _ hbehind

lemma unlist (h : Leading i seq behind q) (hfront : q.front = some (k, wasFresh)) (hk : k ≠ i) :
    Leading i seq behind (q.unlist k wasFresh) := by
  obtain ⟨hfresh, hbehind⟩ := h.popList hfront hk
  have hflow : (q.unlist k wasFresh).flows i = q.flows i := by simp [Inner.unlist, hk.symm]
  exact ⟨hfresh, hflow ▸ h.credit, hflow ▸ h.oldest, hbehind⟩

lemma deliver (h : Leading i seq behind q) (hk : k ≠ i) (x : Queued) :
    Leading i seq behind (q.deliver k x) := by
  have hflow : (q.deliver k x).flows i = q.flows i := by simp [Inner.deliver, hk.symm]
  exact ⟨h.fresh, hflow ▸ h.credit, hflow ▸ h.oldest, h.behind⟩

variable (divSqrt : Duration → ℕ → Duration) {hand : Multiset ℕ}

/-- When the turn of the leading bucket comes, the packet goes. -/
lemma goes (h : Leading i seq behind q) (hs : Straight q hand 0) (ht : Tidy q) (now : Instant) :
    ¬ Holds (q.codel divSqrt i now).1 i seq := by
  rintro ⟨x, hx, hseq⟩
  cases hcodel : q.codel divSqrt i now with
  | mk after r =>
    rw [hcodel] at hx
    cases r with
    | none =>
      have hdry := (Inner.passed_of_codel divSqrt hs hcodel).dry rfl
      rw [hdry] at hx
      cases hx
    | some y =>
      obtain ⟨z, -, hsub⟩ := Inner.codel_order divSqrt hcodel
      have hsorted := (ht.sorted i).sublist (hsub.map Queued.seq)
      rw [List.map_cons, List.pairwise_cons] at hsorted
      have hlt := hsorted.1 x.seq (List.mem_map_of_mem hx)
      have hle := h.oldest z (hsub.subset List.mem_cons_self)
      omega

/-- Where the packet still waits behind CoDel, it was led before, and another bucket was tried. -/
lemma codel {k : Bucket} {after : Inner} {r : Option Queued}
    (h : Holds q i seq → Leading i seq behind q) (hs : Straight q hand 0) (ht : Tidy q)
    (hcodel : (q.note (.selected k)).codel divSqrt k now = (after, r))
    (hholds : Holds after i seq) : Leading i seq behind q ∧ k ≠ i := by
  have hdrained := Inner.drained_of_codel divSqrt hcodel
  have hleading := h (hholds.of_sublist (hdrained.packets i))
  refine ⟨hleading, ?_⟩
  rintro rfl
  have hnoted : Straight (q.note (.selected k)) hand 0 := hs.note fun _ _ => rfl
  refine (hleading.note (.selected k)).goes divSqrt hnoted ⟨ht.filed, ht.sorted⟩ now ?_
  rwa [hcodel]

/-- **One turn** leaves the bucket in the lead as long as the packet waits, and sends nothing from
the buckets behind it. -/
lemma turn {r : Inner ⊕ (Inner × Option Queued)} (h : Holds q i seq → Leading i seq behind q)
    (hs : Straight q hand 0) (hl : Listed q) (ht : Tidy q) (hturn : Inner.Turn divSqrt now q r) :
    r.elim (fun q' => Holds q' i seq → Leading i seq behind q') fun r =>
      Holds r.1 i seq → Leading i seq behind r.1 ∧
        ∀ x ∈ r.2, ∀ j ∈ behind, filedIn r.1.arrived x.seq ≠ some j := by
  cases hturn with
  | idle _ =>
    exact fun hholds => ⟨h hholds, fun x hx => absurd hx (Option.not_mem_none x)⟩
  | @rotate k wasFresh hfront hdeficit =>
    intro hholds
    have hleading := h (hholds.of_sublist (by simp))
    exact (hleading.note _).rotate hfront hdeficit
  | @dry k wasFresh after hfront _ hcodel =>
    intro hholds
    have hdrained := Inner.drained_of_codel divSqrt hcodel
    obtain ⟨hleading, hk⟩ := codel divSqrt h hs ht hcodel (hholds.of_sublist (by simp))
    exact ((hleading.note _).drained hdrained).unlist ((Inner.front_congr hdrained).trans hfront) hk
  | @deliver k wasFresh after x hfront _ hcodel =>
    intro hholds
    have hdrained := Inner.drained_of_codel divSqrt hcodel
    obtain ⟨hleading, hk⟩ := codel divSqrt h hs ht hcodel (hholds.of_sublist (by simp))
    refine ⟨((hleading.note _).drained hdrained).deliver hk x, fun y hy j hj hfiled => ?_⟩
    cases hy
    obtain ⟨z, hseq, hsub⟩ := Inner.codel_order divSqrt hcodel
    have hfiledk : filedIn q.arrived x.seq = some k := by
      rw [← hseq]
      exact ht.filed k z (hsub.subset List.mem_cons_self)
    have harrived : (after.deliver k x).arrived = q.arrived := hdrained.arrived
    rw [harrived, hfiledk] at hfiled
    cases hfiled
    exact hleading.front_notMem hl hfront hj

lemma dequeue (h : Holds q i seq → Leading i seq behind q) (hs : Straight q hand 0)
    (hl : Listed q) (ht : Tidy q) (hholds : Holds (q.dequeue divSqrt now).1 i seq) :
    Leading i seq behind (q.dequeue divSqrt now).1 ∧
      ∀ x ∈ (q.dequeue divSqrt now).2, ∀ j ∈ behind,
        filedIn (q.dequeue divSqrt now).1.arrived x.seq ≠ some j := by
  refine Inner.dequeue_rule divSqrt (I := fun q => (Holds q i seq → Leading i seq behind q) ∧
    Straight q hand 0 ∧ Listed q ∧ Tidy q) (Q := fun r => Holds r.1 i seq →
      Leading i seq behind r.1 ∧ ∀ x ∈ r.2, ∀ j ∈ behind, filedIn r.1.arrived x.seq ≠ some j)
    (fun q r hq hturn _ => ?_) ⟨h, hs, hl, ht⟩ hholds
  obtain ⟨h, hs, hl, ht⟩ := hq
  have hnext := turn divSqrt h hs hl ht hturn
  have hserved := Inner.turn_served divSqrt hs hl hturn
  rcases r with q' | r
  · have harrived : q'.arrived = q.arrived := Inner.turn_arrived divSqrt hturn
    exact ⟨hnext, hserved.1, hserved.2, ht.of_sublist harrived (Inner.turn_sublist divSqrt hturn)⟩
  · exact hnext

end Leading

/-! ### Runs -/

/-- What an arrival does to the service lists and the credit. -/
lemma Inner.enqueue_service (q : Inner) (packet : Packet) (now : Instant) :
    (q.enqueue packet now).backlogged = q.backlogged ∧ q.fresh ⊆ (q.enqueue packet now).fresh ∧
      ∀ i, 0 < (q.flows i).deficit → 0 < ((q.enqueue packet now).flows i).deficit := by
  obtain ⟨q2, hdrained, hjoins⟩ := q.enqueue_joins packet now
  rw [hjoins, join_backlogged, push_backlogged, hdrained.backlogged, join_fresh, push_fresh,
    hdrained.fresh]
  refine ⟨rfl, ?_, fun i hi => ?_⟩
  · split_ifs
    · exact List.Subset.refl _
    · exact List.subset_append_left _ _
  · rw [join_deficit, push_deficit, hdrained.deficit]
    split_ifs
    · simp [QUANTUM]
    · exact hi

/-- A bucket that is filed into while on no list leads. -/
lemma Leading.enqueue {q : Inner} (hl : Listed q) (packet : Packet) (now : Instant)
    (hlisted : (q.flows (flowOf packet)).listed = false) :
    Leading (flowOf packet) q.arrived.length q.backlogged (q.enqueue packet now) := by
  have hempty : (q.flows (flowOf packet)).packets = [] := by
    by_contra hmore
    rw [hl.busy _ hmore] at hlisted
    cases hlisted
  obtain ⟨q2, hdrained, hpackets⟩ := q.enqueue_packets packet now
  have hempty2 : (q2.flows (flowOf packet)).packets = [] := by
    have hsub := hdrained.packets (flowOf packet)
    rw [hempty] at hsub
    exact List.sublist_nil.1 hsub
  have hjoined : flowOf packet ∈ (q.enqueue packet now).fresh ∧
      0 < ((q.enqueue packet now).flows (flowOf packet)).deficit := by
    obtain ⟨q3, hdrained, hjoins⟩ := q.enqueue_joins packet now
    have hoff : (q3.flows (flowOf packet)).listed = false := (hdrained.listed _).trans hlisted
    rw [hjoins, Inner.join_fresh, Inner.join_deficit, Inner.push_listed, hoff]
    simp [QUANTUM]
  refine ⟨hjoined.1, hjoined.2, fun x hx => ?_, ?_⟩
  · rw [hpackets, hempty2, if_pos rfl, List.nil_append, List.mem_singleton] at hx
    rw [hx, hdrained.arrived]
  · rw [(q.enqueue_service packet now).1]
    exact List.Subset.refl _

/-- While the packet waits its bucket leads, and nothing has come from the buckets behind since
the first `handed` packets were handed out. -/
structure Ahead (i : Bucket) (seq : ℕ) (behind : List Bucket) (handed : ℕ) (s : Sim) : Prop where
  known : seq < s.inner.arrived.length
  handed_le : handed ≤ s.out.length
  leading : Holds s.inner i seq → Leading i seq behind s.inner ∧
    ∀ x ∈ s.out.drop handed, ∀ j ∈ behind, filedIn s.inner.arrived x.seq ≠ some j

namespace Ahead

variable {s s' : Sim} {i : Bucket} {seq handed : ℕ} {behind : List Bucket}

lemma drained (h : Ahead i seq behind handed s) (hq : Drained s.inner s'.inner)
    (hout : s'.out = s.out) : Ahead i seq behind handed s' := by
  refine ⟨hq.arrived ▸ h.known, hout ▸ h.handed_le, fun hholds => ?_⟩
  obtain ⟨hleading, hbehind⟩ := h.leading (hholds.of_sublist (hq.packets i))
  rw [hout, hq.arrived]
  exact ⟨hleading.drained hq, hbehind⟩

variable (divSqrt : Duration → ℕ → Duration)

lemma step (h : Ahead i seq behind handed s) (hb : Books s) (ho : InOrder s)
    (op : Duration × Op) : Ahead i seq behind handed (s.step divSqrt op) := by
  obtain ⟨wait, packet | _ | age | rtt⟩ := op
  · have harrived := Inner.enqueue_arrived s.inner packet (s.clock + wait)
    obtain ⟨q2, hdrained, hpackets⟩ := s.inner.enqueue_packets packet (s.clock + wait)
    obtain ⟨hbacklogged, hfresh, hcredit⟩ := s.inner.enqueue_service packet (s.clock + wait)
    rw [Sim.step_enqueue]
    have hknown := h.known
    have hsplit : ∀ x ∈ ((s.inner.enqueue packet (s.clock + wait)).flows i).packets,
        x ∈ (s.inner.flows i).packets ∨ x.seq = s.inner.arrived.length := by
      intro x hx
      rw [hpackets, List.mem_append, hdrained.arrived] at hx
      rcases hx with hx | hx
      · exact .inl ((hdrained.packets i).subset hx)
      · split_ifs at hx
        · rw [List.mem_singleton.1 hx]
          exact .inr rfl
        · cases hx
    refine ⟨?_, h.handed_le, fun ⟨x, hx, hseq⟩ => ?_⟩
    · rw [harrived, List.length_append]
      omega
    · have hbefore : Holds s.inner i seq := by
        rcases hsplit x hx with hold | hnew
        · exact ⟨x, hold, hseq⟩
        · omega
      obtain ⟨hleading, hbehind⟩ := h.leading hbefore
      refine ⟨⟨hfresh hleading.fresh, hcredit i hleading.credit, fun y hy => ?_, ?_⟩,
        fun y hy j hj => ?_⟩
      · rcases hsplit y hy with hold | hnew
        · exact hleading.oldest y hold
        · omega
      · rw [hbacklogged]
        exact hleading.behind
      · rw [harrived, filedIn_append (ho.known y (List.mem_of_mem_drop hy))]
        exact hbehind y hy j hj
  · have hturn := Inner.dequeue_inTurn divSqrt s.inner (s.clock + wait)
    have harrived := Inner.dequeue_arrived divSqrt s.inner (s.clock + wait)
    rw [Sim.step_dequeue]
    refine ⟨harrived ▸ h.known, ?_, fun hholds => ?_⟩
    · rw [List.length_append]
      exact Nat.le_add_right_of_le h.handed_le
    · obtain ⟨-, hbehind⟩ := h.leading (hholds.of_sublist (hturn.packets i))
      obtain ⟨hleading, hsent⟩ := Leading.dequeue divSqrt (fun hh => (h.leading hh).1) hb.straight
        hb.listed ho.tidy hholds
      refine ⟨hleading, fun x hx => ?_⟩
      rw [List.drop_append_of_le_length h.handed_le, List.mem_append, Option.mem_toList] at hx
      rcases hx with hx | hx
      · rw [harrived]
        exact hbehind x hx
      · exact hsent x hx
  · have hdrained : Drained s.inner (s.step divSqrt (wait, .dropOlderThan age)).inner := by
      simp only [Sim.step_dropOlderThan]
      exact Inner.dropOlderThan_drained s.inner (s.clock + wait) age
    have hout : (s.step divSqrt (wait, .dropOlderThan age)).out = s.out := by
      rw [Sim.step_dropOlderThan]
    exact h.drained hdrained hout
  · refine ⟨h.known, h.handed_le, fun hholds => ?_⟩
    obtain ⟨hleading, hbehind⟩ := h.leading hholds
    exact ⟨⟨hleading.fresh, hleading.credit, hleading.oldest, hleading.behind⟩, hbehind⟩

lemma run (h : Ahead i seq behind handed s) (hb : Books s) (ho : InOrder s)
    (ops : List (Duration × Op)) : Ahead i seq behind handed (s.run divSqrt ops) := by
  have hall := Sim.run_inv divSqrt
    (I := fun s => Ahead i seq behind handed s ∧ Books s ∧ InOrder s)
    (fun s op hs => ⟨hs.1.step divSqrt hs.2.1 hs.2.2 op, hs.2.1.step divSqrt op,
      hs.2.2.step divSqrt op⟩) ⟨h, hb, ho⟩ ops
  exact hall.1

end Ahead

lemma Sim.run_out (divSqrt : Duration → ℕ → Duration) (s : Sim) (ops : List (Duration × Op)) :
    s.out <+: (s.run divSqrt ops).out := by
  refine Sim.run_inv divSqrt (I := fun s' => s.out <+: s'.out) (fun s' op hs => ?_)
    (List.prefix_refl _) ops
  obtain ⟨wait, packet | _ | age | rtt⟩ := op
  · exact hs
  · rw [Sim.step_dequeue]
    exact hs.trans (List.prefix_append _ _)
  · rw [Sim.step_dropOlderThan]
    exact hs
  · exact hs

/-- **A new flow goes ahead of the backlog.** A packet enqueued for a bucket that is on no list
leaves the queue before anything is handed out from a bucket that was backlogged then: as long as
it waits, in whatever follows, no packet handed out since is one of theirs. -/
theorem new_flow_goes_ahead (divSqrt : Duration → ℕ → Duration) (start : Instant)
    (before after : List (Duration × Op)) (wait : Duration) (packet : Packet) :
    let s := Sim.run divSqrt (.init start) before
    let s1 := s.step divSqrt (wait, .enqueue packet)
    let s2 := s1.run divSqrt after
    (s.inner.flows (flowOf packet)).listed = false →
    (∃ x ∈ (s2.inner.flows (flowOf packet)).packets, x.seq = s.inner.arrived.length) →
    s1.out <+: s2.out ∧ ∀ x ∈ s2.out.drop s1.out.length, ∀ i ∈ s.inner.backlogged,
      filedIn s2.inner.arrived x.seq ≠ some i := by
  intro s s1 s2 hlisted hholds
  have hbooks := Books.run divSqrt start before
  have horder := InOrder.run divSqrt start before
  have harrived : s1.inner.arrived = s.inner.arrived ++ [packet] :=
    Inner.enqueue_arrived s.inner packet (s.clock + wait)
  have hleading : Leading (flowOf packet) s.inner.arrived.length s.inner.backlogged s1.inner :=
    Leading.enqueue hbooks.listed packet (s.clock + wait) hlisted
  have hahead : Ahead (flowOf packet) s.inner.arrived.length s.inner.backlogged
      s1.out.length s1 := by
    refine ⟨?_, Nat.le_refl _, fun _ => ⟨hleading, fun x hx => ?_⟩⟩
    · rw [harrived, List.length_append, List.length_singleton]
      exact Nat.lt_succ_self _
    · rw [List.drop_length] at hx
      cases hx
  have hend := hahead.run divSqrt (hbooks.step divSqrt _) (horder.step divSqrt _) after
  exact ⟨s1.run_out divSqrt after, fun x hx i hi => (hend.leading hholds).2 x hx i hi⟩

/-- One flow backlogged, another fresh. -/
def crowd : List (Duration × Op) := settle ++ [(0, .enqueue (probe 3))]

/-- A flow that comes after the fresh one waits, and the fresh one sends. -/
theorem new_flow_goes_ahead_second :
    ((Sim.run divRoot (.init 0) crowd).step divRoot (0, .enqueue (probe 2))).out <+:
      (((Sim.run divRoot (.init 0) crowd).step divRoot (0, .enqueue (probe 2))).run divRoot
        [(0, .dequeue)]).out ∧
    ∀ x ∈ (((Sim.run divRoot (.init 0) crowd).step divRoot (0, .enqueue (probe 2))).run divRoot
        [(0, .dequeue)]).out.drop
          ((Sim.run divRoot (.init 0) crowd).step divRoot (0, .enqueue (probe 2))).out.length,
      ∀ i ∈ (Sim.run divRoot (.init 0) crowd).inner.backlogged,
        filedIn (((Sim.run divRoot (.init 0) crowd).step divRoot (0, .enqueue (probe 2))).run
          divRoot [(0, .dequeue)]).inner.arrived x.seq ≠ some i := by
  refine new_flow_goes_ahead divRoot 0 crowd [(0, .dequeue)] 0 (probe 2) ?_ ?_
  · decide +kernel
  · decide +kernel

end Masqr.Queue
