import Masqr.Queue.Dequeue

/-!
The totals of the queue are straight, and no packet is lost or counted twice.

Every removal goes through three hand-kept counters. The invariant says they are sums,
that nothing has been subtracted from below, and that the packets enqueued are, each
exactly once, waiting, counted in one of the four drop counters, or in hand: handed out
already, or taken and not yet decided about. While a sweep runs its drops are counted
apart, so the counter of stale packets lags behind by that many.
-/

namespace Masqr.Queue

open Masqr.Lib

/-- The bytes of a run of packets. -/
def size (l : List Queued) : ℕ := (l.map fun x => x.packet.length).sum

/-- Which packets they are. -/
def seqs (l : List Queued) : Multiset ℕ := l.map Queued.seq

/-- Which packet left by this event, in this way. -/
def Event.gone (fate : Fate) : Event → Multiset ℕ
  | .left _ seq _ f => if f = fate then {seq} else 0
  | _ => 0

/-- Which packets the log says left in one way. -/
def gone (fate : Fate) (log : List Event) : Multiset ℕ := (log.map (Event.gone fate)).sum

@[simp] lemma gone_cons (fate : Fate) (e : Event) (log : List Event) :
    gone fate (e :: log) = e.gone fate + gone fate log := by simp [gone]

@[simp] lemma seqs_append (l r : List Queued) : seqs (l ++ r) = seqs l + seqs r := by
  simp [seqs]

lemma size_append (l r : List Queued) : size (l ++ r) = size l + size r := by simp [size]

/-- A packet taken out of a bucket accounts for the difference. -/
lemma eraseIdx_accounts {l : List Queued} {k : ℕ} {x : Queued} (h : l[k]? = some x) :
    seqs l = x.seq ::ₘ seqs (l.eraseIdx k) ∧ size l = x.packet.length + size (l.eraseIdx k) ∧
      l.length = 1 + (l.eraseIdx k).length := by
  obtain ⟨hk, rfl⟩ := List.getElem?_eq_some_iff.mp h
  have hp := List.getElem_cons_eraseIdx_perm hk
  refine ⟨?_, ?_, ?_⟩
  · have := Multiset.coe_eq_coe.mpr (hp.map Queued.seq)
    simpa [seqs] using this.symm
  · have := (hp.map fun x : Queued => x.packet.length).sum_eq
    simpa [size] using this.symm
  · have := hp.length_eq
    rw [List.length_cons] at this
    omega

namespace Inner

/-- Which packets wait in the buckets. -/
def waiting (q : Inner) : Multiset ℕ := ∑ i, seqs (q.flows i).packets

/-- Which packets were dropped, for whatever reason. -/
def lost (q : Inner) : Multiset ℕ :=
  gone .overLimit q.log + gone .overTarget q.log + gone .thinned q.log + gone .stale q.log

/-- The counter of the packets dropped in one way, with `lag` stale ones yet to be added. -/
def tally (q : Inner) (lag : ℕ) : Fate → ℕ
  | .delivered => 0
  | .overLimit => q.overLimit
  | .overTarget => q.overTarget
  | .thinned => q.thinned
  | .stale => q.stale + lag

end Inner

/-- The totals are straight, with the packets `hand` in hand, and `lag` drops of a sweep
not yet added to the stale ones. -/
structure Straight (q : Inner) (hand : Multiset ℕ) (lag : ℕ) : Prop where
  flowBytes : ∀ i, (q.flows i).bytes = size (q.flows i).packets
  bytes : q.bytes = ∑ i, (q.flows i).bytes
  packets : q.packets = ∑ i, (q.flows i).packets.length
  sound : q.faulted = false
  ledger : q.waiting + q.lost + hand = Multiset.range q.arrived.length
  counted : ∀ fate, fate ≠ .delivered → (gone fate q.log).card = q.tally lag fate
  genuine : ∀ i, ∀ x ∈ (q.flows i).packets, q.arrived[x.seq]? = some x.packet

namespace Straight

variable {q q' : Inner} {hand : Multiset ℕ} {lag k : ℕ} {i : Bucket} {x : Queued}

lemma new : Straight .new 0 0 := by
  refine ⟨?_, ?_, ?_, rfl, ?_, fun fate hf => ?_, ?_⟩
  case refine_5 => cases fate <;> first | exact absurd rfl hf | rfl
  all_goals simp [Inner.new, size, Inner.waiting, Inner.lost, seqs, gone]

/-- A packet removed goes from its bucket into the hand. -/
lemma remove (h : Straight q hand lag) (hr : q.remove i k = some (x, q')) :
    Straight q' (x.seq ::ₘ hand) lag ∧ q'.arrived[x.seq]? = some x.packet := by
  obtain ⟨hx, rfl⟩ := Inner.remove_cases hr
  obtain ⟨hseq, hsize, hlen⟩ := eraseIdx_accounts hx
  set f' : Flow := { q.flows i with
    packets := (q.flows i).packets.eraseIdx k
    bytes := (q.flows i).bytes - x.packet.length } with hf'
  have hb := h.flowBytes i
  have hwait : x.seq ::ₘ ∑ j, seqs (Function.update q.flows i f' j).packets = q.waiting := by
    have hs := sum_update q.flows i f' fun f => seqs f.packets
    simp only [hf', hseq, Multiset.add_cons] at hs
    rw [← Multiset.cons_add] at hs
    exact add_right_cancel hs
  have hbytes : ∑ j, (Function.update q.flows i f' j).bytes + x.packet.length = q.bytes := by
    have hs := sum_update q.flows i f' fun f => f.bytes
    simp only [hf'] at hs ⊢
    rw [h.bytes]
    omega
  have hpackets : ∑ j, (Function.update q.flows i f' j).packets.length + 1 = q.packets := by
    have hs := sum_update q.flows i f' fun f => f.packets.length
    simp only [hf'] at hs ⊢
    rw [h.packets]
    omega
  refine ⟨⟨fun j => ?_, ?_, ?_, ?_, ?_, h.counted, fun j y hy => ?_⟩,
    h.genuine i x (List.mem_of_getElem? hx)⟩
  · by_cases hj : j = i
    · subst hj
      simp only [Inner.modify_flows, Function.update_self]
      omega
    · simpa [hj] using h.flowBytes j
  · simp only [Inner.modify_flows]
    exact (Nat.sub_eq_of_eq_add hbytes.symm)
  · simp only [Inner.modify_flows]
    exact (Nat.sub_eq_of_eq_add hpackets.symm)
  · simp only [h.sound, Bool.false_or, Bool.or_eq_false_iff, decide_eq_false_iff_not]
    omega
  · have hl := h.ledger
    rw [← hwait] at hl
    change ∑ j, seqs (Function.update q.flows i f' j).packets + q.lost + x.seq ::ₘ hand
      = Multiset.range q.arrived.length
    rw [← hl]
    simp only [Multiset.cons_add, Multiset.add_cons]
  · by_cases hj : j = i
    · subst hj
      simp only [Inner.modify_flows, Function.update_self] at hy
      exact h.genuine j y ((List.eraseIdx_sublist _ _).subset hy)
    · simp only [Inner.modify_flows, Function.update_of_ne hj] at hy
      exact h.genuine j y hy

/-- A step that writes no packet, no total and no counter. -/
lemma same (h : Straight q hand lag)
    (hf : ∀ i, (q'.flows i).packets = (q.flows i).packets ∧
      (q'.flows i).bytes = (q.flows i).bytes)
    (ht : q'.bytes = q.bytes ∧ q'.packets = q.packets ∧ q'.faulted = q.faulted)
    (hc : q'.overLimit = q.overLimit ∧ q'.overTarget = q.overTarget ∧ q'.thinned = q.thinned ∧
      q'.stale = q.stale)
    (ha : q'.arrived = q.arrived) (hlog : q'.log = q.log) : Straight q' hand lag := by
  have hw : q'.waiting = q.waiting := Finset.sum_congr rfl fun i _ => congrArg seqs (hf i).1
  have hl : q'.lost = q.lost := by simp only [Inner.lost, hlog]
  obtain ⟨h1, h2, h3⟩ := ht
  obtain ⟨h4, h5, h6, h7⟩ := hc
  refine ⟨fun i => ?_, ?_, ?_, ?_, ?_, fun fate hd => ?_, fun i x hx => ?_⟩
  · rw [(hf i).1, (hf i).2]; exact h.flowBytes i
  · rw [h1, h.bytes]
    exact Finset.sum_congr rfl fun i _ => ((hf i).2).symm
  · rw [h2, h.packets]
    exact Finset.sum_congr rfl fun i _ => by rw [(hf i).1]
  · rw [h3]; exact h.sound
  · rw [hw, hl, ha]; exact h.ledger
  · rw [hlog, h.counted fate hd]
    cases fate <;> simp only [Inner.tally, h4, h5, h6, h7]
  · rw [ha]
    rw [(hf i).1] at hx
    exact h.genuine i x hx

lemma retuned (h : Straight q hand lag) (hq : Retuned q q') : Straight q' hand lag :=
  h.same (fun i => ⟨(hq.flow i).1, (hq.flow i).2.1⟩) hq.totals hq.counters hq.arrived hq.log

/-- Changing what the scheduler keeps in one bucket. -/
lemma modify (h : Straight q hand lag) (i : Bucket) {f : Flow → Flow}
    (hf : ∀ fl, (f fl).packets = fl.packets ∧ (f fl).bytes = fl.bytes) :
    Straight (q.modify i f) hand lag := by
  refine h.same (fun j => ?_) ⟨rfl, rfl, rfl⟩ ⟨rfl, rfl, rfl, rfl⟩ rfl rfl
  by_cases hj : j = i
  · subst hj; simpa using hf _
  · simp [hj]

/-- An event by which no packet is lost. -/
lemma note (h : Straight q hand lag) {e : Event}
    (he : ∀ fate, fate ≠ .delivered → e.gone fate = 0) : Straight (q.note e) hand lag := by
  have hg : ∀ fate, fate ≠ .delivered → gone fate (q.note e).log = gone fate q.log :=
    fun fate hf => by simp [Inner.note, he fate hf]
  refine { h with ledger := ?_, counted := fun fate hf => (congrArg _ (hg fate hf)).trans ?_ }
  · have hl : (q.note e).lost = q.lost := by
      unfold Inner.lost
      rw [hg _ (by decide), hg _ (by decide), hg _ (by decide), hg _ (by decide)]
    rw [hl]
    exact h.ledger
  · rw [h.counted fate hf]
    cases fate <;> rfl

/-- A packet in hand is dropped, and counted where it is dropped. -/
lemma lose {q' : Inner} {s len lag' : ℕ} {fate : Fate} (h : Straight q (s ::ₘ hand) lag)
    (hf : fate ≠ .delivered)
    (hsame : q'.flows = q.flows ∧ q'.bytes = q.bytes ∧ q'.packets = q.packets ∧
      q'.faulted = q.faulted ∧ q'.arrived = q.arrived ∧ q'.log = q.log)
    (hc : ∀ f, q'.tally lag' f = q.tally lag f + if f = fate then 1 else 0) :
    Straight (q'.note (.left i s len fate)) hand lag' := by
  obtain ⟨h1, h2, h3, h4, h5, h6⟩ := hsame
  refine ⟨fun j => ?_, ?_, ?_, ?_, ?_, fun f hf' => ?_, fun j y hy => ?_⟩
  · simp only [Inner.note_flows, h1]; exact h.flowBytes j
  · simp only [Inner.note, h1, h2]; exact h.bytes
  · simp only [Inner.note, h1, h3]; exact h.packets
  · simp only [Inner.note, h4]; exact h.sound
  · have hl := h.ledger
    simp only [Inner.waiting, Inner.lost, Inner.note, h1, h5, h6, gone_cons, Event.gone] at hl ⊢
    rw [← hl, ← Multiset.singleton_add]
    cases fate <;> simp at hf ⊢
  · simp only [Inner.note, h6, gone_cons, Multiset.card_add]
    rw [h.counted f hf']
    have := hc f
    simp only [Inner.tally, Event.gone] at this ⊢
    by_cases hff : f = fate
    · subst hff
      cases f <;> simp at this ⊢ <;> omega
    · have hff' : fate ≠ f := fun he => hff he.symm
      cases f <;> simp [hff, hff'] at this ⊢ <;> omega
  · simp only [Inner.note, h1, h5] at hy ⊢
    exact h.genuine j y hy

lemma push (h : Straight q hand lag) (i : Bucket) (packet : Packet) (now : Instant) :
    Straight (q.push i packet now) hand lag := by
  set f' : Flow := { q.flows i with
    packets := (q.flows i).packets ++ [⟨packet, now, q.arrived.length⟩]
    bytes := (q.flows i).bytes + packet.length } with hf'
  have hold : ∀ (n : ℕ) (p : Packet), q.arrived[n]? = some p → (q.arrived ++ [packet])[n]? = some p := by
    intro n p hn
    rw [List.getElem?_append_left (List.getElem?_eq_some_iff.mp hn).1]
    exact hn
  refine ⟨fun j => ?_, ?_, ?_, h.sound, ?_, fun fate hf => ?_, fun j y hy => ?_⟩
  · by_cases hj : j = i
    · subst hj
      simp only [Inner.push, Inner.modify_flows, Function.update_self, size_append, h.flowBytes]
      simp [size]
    · simpa [Inner.push, hj] using h.flowBytes j
  · have hs := sum_update q.flows i f' fun f => f.bytes
    simp only [hf'] at hs
    simp only [Inner.push, Inner.modify_flows, h.bytes]
    omega
  · have hs := sum_update q.flows i f' fun f => f.packets.length
    simp only [hf', List.length_append, List.length_singleton] at hs
    simp only [Inner.push, Inner.modify_flows, h.packets]
    omega
  · have hs := sum_update q.flows i f' fun f => seqs f.packets
    have hw : (q.push i packet now).waiting = q.waiting + {q.arrived.length} := by
      simp only [hf', seqs_append] at hs
      rw [add_comm (seqs _) (seqs _), ← add_assoc] at hs
      have := add_right_cancel hs
      simpa [Inner.waiting, Inner.push, seqs] using this
    have hl : (q.push i packet now).lost = q.lost := rfl
    have ha : (q.push i packet now).arrived = q.arrived ++ [packet] := rfl
    rw [hw, hl, ha, List.length_append, List.length_singleton, Multiset.range_succ, ← h.ledger,
      ← Multiset.singleton_add]
    abel
  · have := h.counted fate hf
    cases fate <;> exact this
  · by_cases hj : j = i
    · subst hj
      simp only [Inner.push, Inner.modify_flows, Function.update_self, List.mem_append,
        List.mem_singleton] at hy
      rcases hy with hy | rfl
      · exact hold _ _ (h.genuine j y hy)
      · simp [Inner.push]
    · simp only [Inner.push, Inner.modify_flows, Function.update_of_ne hj] at hy
      exact hold _ _ (h.genuine j y hy)

end Straight

/-- Every bucket is on one service list or on none, as it says itself, and a bucket that
holds packets is on one. -/
structure Listed (q : Inner) : Prop where
  once : ∀ i, (q.fresh ++ q.backlogged).count i = if (q.flows i).listed then 1 else 0
  busy : ∀ i, (q.flows i).packets ≠ [] → (q.flows i).listed = true

namespace Listed

variable {q q' : Inner}

lemma new : Listed .new := ⟨fun i => by simp [Inner.new], fun i h => by simp [Inner.new] at h⟩

lemma drained (h : Listed q) (hq : Drained q q') : Listed q' where
  once i := by rw [hq.fresh, hq.backlogged, hq.listed i]; exact h.once i
  busy i hi := by
    rw [hq.listed i]
    refine h.busy i fun hn => hi ?_
    have := hq.packets i
    rw [hn] at this
    exact List.sublist_nil.mp this

/-- A step that leaves every bucket but one as it was, on the list it was on. -/
lemma of_bucket (h : Listed q) (i : Bucket)
    (honce : (q'.fresh ++ q'.backlogged).count i = if (q'.flows i).listed then 1 else 0)
    (hbusy : (q'.flows i).packets ≠ [] → (q'.flows i).listed = true)
    (hothers : ∀ j ≠ i, (q'.fresh ++ q'.backlogged).count j = (q.fresh ++ q.backlogged).count j ∧
      q'.flows j = q.flows j) : Listed q' := by
  refine ⟨fun j => ?_, fun j hj => ?_⟩
  · by_cases hji : j = i
    · rw [hji]
      exact honce
    · rw [(hothers j hji).1, (hothers j hji).2]
      exact h.once j
  · by_cases hji : j = i
    · rw [hji] at hj ⊢
      exact hbusy hj
    · rw [(hothers j hji).2] at hj ⊢
      exact h.busy j hj

lemma enqueue (h : Listed q) (packet : Packet) (now : Instant) :
    Listed (q.enqueue packet now) := by
  obtain ⟨q2, hdrained, hjoins⟩ := q.enqueue_joins packet now
  have h2 : Listed q2 := h.drained hdrained
  rw [hjoins]
  generalize flowOf packet = i
  have honce := h2.once i
  unfold Inner.join
  split_ifs with hl
  · refine h2.of_bucket i (by simpa using honce) (fun _ => hl) fun j hji => ⟨rfl, ?_⟩
    rw [Inner.push_flows, Function.update_of_ne hji]
  · simp only [Inner.push_flows, Function.update_self] at hl
    simp only [if_neg hl, List.count_append] at honce
    refine h2.of_bucket i ?_ (by simp) fun j hji => ⟨?_, ?_⟩
    · simp only [Inner.modify_flows, Inner.push_fresh, Inner.modify_backlogged,
        Inner.push_backlogged, List.count_append, Function.update_self, List.count_cons_self,
        List.count_nil, if_true]
      omega
    · simp [List.count_append, hji.symm]
    · simp only [Inner.modify_flows, Inner.push_flows, Function.update_of_ne hji]

/-- The bucket whose turn it is, taken off its list, leaves the others on theirs. -/
lemma front_perm {i : Bucket} {wasFresh : Bool} (h : q.front = some (i, wasFresh)) :
    (q.fresh ++ q.backlogged).Perm
      (i :: ((q.popList wasFresh).fresh ++ (q.popList wasFresh).backlogged)) := by
  rcases Inner.front_cases h with ⟨rfl, r, hf⟩ | ⟨rfl, hf, r, hb⟩
  · simp [Inner.popList, hf]
  · simp [Inner.popList, hf, hb]

lemma rotate (h : Listed q) {i : Bucket} {wasFresh : Bool} (hf : q.front = some (i, wasFresh)) :
    Listed (q.rotate i wasFresh) := by
  obtain ⟨h1, h2⟩ := Inner.rotate_lists q i wasFresh
  have hp : ((q.rotate i wasFresh).fresh ++ (q.rotate i wasFresh).backlogged).Perm
      (q.fresh ++ q.backlogged) := by
    rw [h1, h2, ← List.append_assoc]
    exact (List.perm_append_singleton i _).trans (front_perm hf).symm
  refine h.of_bucket i ?_ (fun hi => ?_) fun j hji => ⟨hp.count_eq j, ?_⟩
  · rw [hp.count_eq i, h.once i, Inner.rotate_flows, Function.update_self]
  · rw [Inner.rotate_flows, Function.update_self] at hi ⊢
    exact h.busy i hi
  · rw [Inner.rotate_flows, Function.update_of_ne hji]

lemma unlist (h : Listed q) {i : Bucket} {wasFresh : Bool} (hf : q.front = some (i, wasFresh))
    (hdry : (q.flows i).packets = []) : Listed (q.unlist i wasFresh) := by
  have hcount := (front_perm hf).count_eq
  refine h.of_bucket i ?_ (fun hi => ?_) fun j hji => ⟨?_, ?_⟩
  · -- it was on one list, and is taken off it
    have hc := hcount i
    rw [h.once i, List.count_cons_self] at hc
    have hz : ((q.popList wasFresh).fresh ++ (q.popList wasFresh).backlogged).count i = 0 := by
      split_ifs at hc
      omega
    simpa [Inner.unlist] using hz
  · simp [Inner.unlist, hdry] at hi
  · rw [hcount j, List.count_cons_of_ne hji.symm]
    rfl
  · simp only [Inner.unlist, Inner.note_flows, Inner.modify_flows, Inner.popList_flows,
      Function.update_of_ne hji]

lemma deliver (h : Listed q) (i : Bucket) (x : Queued) : Listed (q.deliver i x) := by
  refine h.of_bucket i ?_ (fun hi => ?_) fun j hji => ⟨rfl, ?_⟩
  · simpa [Inner.deliver] using h.once i
  · simpa [Inner.deliver] using h.busy i (by simpa [Inner.deliver] using hi)
  · simp only [Inner.deliver, Inner.note_flows, Inner.modify_flows, Function.update_of_ne hji]

end Listed

namespace Inner

variable {q q' : Inner} {i : Bucket} {now : Instant} {x : Queued} {o : Bool}
variable {hand : Multiset ℕ} {lag : ℕ}

/-! ### What each operation does to the totals -/

/-- The packet is one that was enqueued, perhaps with the congestion mark put on it. -/
def Handed (q : Inner) (x : Queued) : Prop :=
  ∃ p, q.arrived[x.seq]? = some p ∧ (x.packet = p ∨ markCongestion p = some x.packet)

lemma dropFattest_straight (h : Straight q hand lag) : Straight q.dropFattest.2 hand lag := by
  unfold dropFattest
  split
  · exact h
  · split
    · exact h
    · next hr =>
      exact (h.remove hr).1.lose (by decide) ⟨rfl, rfl, rfl, rfl, rfl, rfl⟩
        (by intro f; cases f <;> simp [tally])

/-- With straight totals a bucket that has bytes has a packet, so overflow makes progress. -/
lemma dropFattest_progress (h : Straight q hand lag) (hd : q.dropFattest.1 = true) :
    q.dropFattest.2.waitingCount < q.waitingCount := by
  have h' := dropFattest_straight h
  have hp := h'.packets
  have hp0 := h.packets
  revert hd hp h'
  unfold dropFattest
  split
  · intro hd
    cases hd
  · next i hi =>
    split
    · next hn =>
      have he := popFront_none hn
      obtain ⟨-, hpos⟩ := Option.filter_eq_some_iff.mp hi
      have hb := h.flowBytes i
      simp [he, size] at hb
      simp [hb] at hpos
    · next x q1 hr =>
      intro hd h' hp
      obtain ⟨-, hq1⟩ := remove_cases hr
      have hs := (h.remove hr).1.sound
      have h1 : q1.packets = q.packets - 1 := by rw [hq1]
      have h2 : 0 < q.packets := by
        rw [hq1] at hs
        simp only [Bool.or_eq_false_iff, decide_eq_false_iff_not] at hs
        omega
      simp only [note, waitingCount] at hp ⊢
      rw [← hp, ← hp0]
      omega

lemma makeRoom_straight (len : ℕ) (h : Straight q hand lag) :
    Straight ((makeRoom len).run q) hand lag := by
  refine (makeRoom len).run_inv (fun q => Straight q hand lag) (fun q => Straight q hand lag)
    (fun s r hs hb => ?_) (fun s s' hs hb => ?_) h
  · cases makeRoom_turn hb with
    | fits | nothing => exact hs
    | stuck hdropped hsame => exact absurd (dropFattest_progress hs hdropped) hsame
  · cases makeRoom_turn hb with
    | dropped => exact dropFattest_straight hs

lemma thinOne_straight (i : Bucket) (k : ℕ) (h : Straight q hand lag) :
    Straight (thinOne i q k) hand lag := by
  unfold thinOne
  split
  · exact h
  · next hr =>
    exact (h.remove hr).1.lose (by decide) ⟨rfl, rfl, rfl, rfl, rfl, rfl⟩
      (by intro f; cases f <;> simp [tally])

lemma thinFor_straight (i : Bucket) (packet : Packet) (h : Straight q hand lag) :
    Straight (q.thinFor i packet) hand lag :=
  thinFor_rule (I := fun s => Straight s hand lag) (fun _ k hs => thinOne_straight i k hs) packet h

lemma join_straight (i : Bucket) (h : Straight q hand lag) : Straight (q.join i) hand lag := by
  unfold join
  split_ifs
  · exact h
  · exact (h.modify i (f := fun f => { f with listed := true, deficit := QUANTUM })
      fun _ => ⟨rfl, rfl⟩).same (fun _ => ⟨rfl, rfl⟩) ⟨rfl, rfl, rfl⟩ ⟨rfl, rfl, rfl, rfl⟩ rfl rfl

lemma enqueue_straight (packet : Packet) (now : Instant) (h : Straight q hand lag) :
    Straight (q.enqueue packet now) hand lag :=
  join_straight _ ((thinFor_straight _ _ (makeRoom_straight packet.length h)).push _ packet now)

lemma sweepFlow_straight (now : Instant) (age : Duration) (i : Bucket) {s : Inner × ℕ}
    (h : Straight s.1 hand s.2) :
    Straight ((sweepFlow now age i).run s).1 hand ((sweepFlow now age i).run s).2 := by
  refine (sweepFlow now age i).run_inv (fun t => Straight t.1 hand t.2)
    (fun t => Straight t.1 hand t.2) (fun t r ht hb => ?_) (fun t t' ht hb => ?_) h
  · cases sweepFlow_turn hb with
    | stop => exact ht
  · cases sweepFlow_turn hb with
    | gone hpop =>
      exact (ht.remove hpop).1.lose (by decide) ⟨rfl, rfl, rfl, rfl, rfl, rfl⟩
        (by intro f; cases f <;> simp [tally, Nat.add_assoc])

lemma sweepOne_straight (now : Instant) (age : Duration) {s : Inner × ℕ} (i : Bucket)
    (h : Straight s.1 hand s.2) :
    Straight (sweepOne now age s i).1 hand (sweepOne now age s i).2 :=
  (sweepFlow_straight now age i h).retuned (clear_retuned _ i)

lemma dropOlderThan_straight (now : Instant) (age : Duration) (h : Straight q hand 0) :
    Straight (q.dropOlderThan now age).1 hand 0 := by
  have hfold : ∀ (is : List Bucket) (s : Inner × ℕ), Straight s.1 hand s.2 →
      Straight (is.foldl (sweepOne now age) s).1 hand (is.foldl (sweepOne now age) s).2 := by
    intro is
    induction is with
    | nil => exact fun s hs => hs
    | cons i is ih => exact fun s hs => ih _ (sweepOne_straight now age i hs)
  have hs := hfold (List.finRange FLOWS) (q.note .swept, 0)
    (h.note (e := .swept) fun _ _ => rfl)
  unfold dropOlderThan
  generalize (List.finRange FLOWS).foldl (sweepOne now age) (q.note .swept, 0) = s at hs ⊢
  refine { hs with counted := fun fate hf => ?_ }
  have := hs.counted fate hf
  cases fate <;> exact this

lemma take_straight (h : Straight q hand lag) (hk : q.take i now = some (x, o, q')) :
    Straight q' (x.seq ::ₘ hand) lag ∧ q'.arrived[x.seq]? = some x.packet := by
  obtain ⟨q1, hr, hj⟩ := take_cases hk
  obtain ⟨h1, hx⟩ := h.remove hr
  have hw : Straight { q1 with worstWait := max q1.worstWait (now.since x.since) }
      (x.seq ::ₘ hand) lag :=
    h1.same (fun _ => ⟨rfl, rfl⟩) ⟨rfl, rfl, rfl⟩ ⟨rfl, rfl, rfl, rfl⟩ rfl rfl
  have h2 : Straight (q1.recordWait i x now) (x.seq ::ₘ hand) lag := hw.note fun _ _ => rfl
  have hret := judge_retuned (q1.recordWait i x now) i (now.since x.since) now
  rw [← hj] at hret
  refine ⟨h2.retuned hret, ?_⟩
  rw [hret.arrived]
  exact hx

lemma take_none (h : q.take i now = none) : (q.flows i).packets = [] := by
  unfold take at h
  split at h
  · next hn => exact popFront_none hn
  · cases h

lemma mark_straight {y : Queued} (h : Straight q (x.seq ::ₘ hand) lag)
    (hx : q.arrived[x.seq]? = some x.packet) (hm : q.mark i x = some (y, q')) :
    Straight q' (y.seq ::ₘ hand) lag ∧ q'.Handed y := by
  obtain ⟨hp, hs, -, rfl⟩ := mark_cases hm
  rw [hs]
  refine ⟨?_, x.packet, hs ▸ hx, .inr hp⟩
  have hmarked : Straight { q with marked := q.marked + 1 } (x.seq ::ₘ hand) lag :=
    h.same (fun _ => ⟨rfl, rfl⟩) ⟨rfl, rfl, rfl⟩ ⟨rfl, rfl, rfl, rfl⟩ rfl rfl
  exact hmarked.note fun _ _ => rfl

lemma dropOverTarget_straight (i : Bucket) (h : Straight q (x.seq ::ₘ hand) lag) :
    Straight (q.dropOverTarget i x) hand lag :=
  h.lose (by decide) ⟨rfl, rfl, rfl, rfl, rfl, rfl⟩ (by intro f; cases f <;> simp [tally])

/-- What CoDel answers: the packet is accounted for as handed out, and there is none only
when the bucket is empty. -/
structure Passed (i : Bucket) (hand : Multiset ℕ) (r : Inner × Option Queued) : Prop where
  straight : Straight r.1 (seqs r.2.toList + hand) 0
  handed : ∀ x ∈ r.2, r.1.Handed x
  dry : r.2 = none → (r.1.flows i).packets = []

lemma Passed.some (h : Straight q (x.seq ::ₘ hand) 0) (hx : q.Handed x) :
    Passed i hand (q, .some x) where
  straight := by simpa [seqs, Multiset.singleton_add] using h
  handed y hy := by obtain rfl : x = y := by simpa using hy
                    exact hx
  dry := nofun

lemma Passed.none (h : Straight q hand 0) (hp : (q.flows i).packets = []) :
    Passed i hand (q, .none) where
  straight := by simpa [seqs] using h
  handed := nofun
  dry _ := hp

lemma Passed.retuned {r : Option Queued} (h : Passed i hand (q, r)) (hq : Retuned q q') :
    Passed i hand (q', r) where
  straight := h.straight.retuned hq
  handed y hy := by
    obtain ⟨p, hp, he⟩ := h.handed y hy
    exact ⟨p, by rw [hq.arrived]; exact hp, he⟩
  dry hr := by rw [(hq.flow i).1]; exact h.dry hr

variable (divSqrt : Duration → ℕ → Duration)

lemma dropLoop_passed (h : Straight q (x.seq ::ₘ hand) 0)
    (hx : q.arrived[x.seq]? = some x.packet) :
    Passed i hand ((dropLoop divSqrt i now).run (q, x)) := by
  refine (dropLoop divSqrt i now).run_inv
    (fun t => Straight t.1 (t.2.seq ::ₘ hand) 0 ∧ t.1.arrived[t.2.seq]? = some t.2.packet)
    (Passed i hand) (fun t r ht hb => ?_) (fun t t' ht hb => ?_) ⟨h, hx⟩
  · have ht1 := ht.1.retuned (countUp_retuned t.1 i)
    cases dropLoop_turn divSqrt hb with
    | idle => exact .some ht.1 ⟨_, ht.2, .inl rfl⟩
    | marked _ hm =>
      obtain ⟨h1, h2⟩ := mark_straight ht1 ht.2 hm
      exact (Passed.some h1 h2).retuned (schedule_retuned divSqrt _ i _)
    | dry _ _ hn =>
      exact (Passed.none (dropOverTarget_straight i ht1) (take_none hn)).retuned
        (setDropping_retuned _ i false)
  · have ht1 := ht.1.retuned (countUp_retuned t.1 i)
    cases dropLoop_turn divSqrt hb with
    | again _ _ hk =>
      obtain ⟨h1, h2⟩ := take_straight (dropOverTarget_straight i ht1) hk
      exact ⟨h1.retuned (schedule_retuned divSqrt _ i _), h2⟩
    | eased _ _ hk =>
      obtain ⟨h1, h2⟩ := take_straight (dropOverTarget_straight i ht1) hk
      exact ⟨h1.retuned (setDropping_retuned _ i false), h2⟩

lemma codel_passed (now : Instant) (h : Straight q hand 0) :
    Passed i hand (q.codel divSqrt i now) := by
  unfold codel
  split
  · next hn => exact .none h (take_none hn)
  · next x o q1 hk =>
    obtain ⟨h1, hx⟩ := take_straight h hk
    have hx' : q1.Handed x := ⟨_, hx, .inl rfl⟩
    split_ifs
    · exact dropLoop_passed divSqrt h1 hx
    · exact (Passed.some h1 hx').retuned (setDropping_retuned q1 i false)
    · split
      · next hm =>
        obtain ⟨h2, h3⟩ := mark_straight h1 hx hm
        exact (Passed.some h2 h3).retuned (startEpisode_retuned divSqrt _ i now)
      · have h2 := dropOverTarget_straight i h1
        split
        · next hn =>
          exact (Passed.none h2 (take_none hn)).retuned (startEpisode_retuned divSqrt _ i now)
        · next hk' =>
          obtain ⟨h3, h4⟩ := take_straight h2 hk'
          exact (Passed.some h3 ⟨_, h4, .inl rfl⟩).retuned (startEpisode_retuned divSqrt _ i now)
    · exact .some h1 hx'

lemma passed_of_codel {r : Option Queued} (h : Straight q hand 0)
    (hcodel : q.codel divSqrt i now = (q', r)) : Passed i hand (q', r) := by
  have hpassed := codel_passed (i := i) divSqrt now h
  rwa [hcodel] at hpassed

/-- What a dequeue answers. -/
structure Served (hand : Multiset ℕ) (r : Inner × Option Queued) : Prop where
  straight : Straight r.1 (seqs r.2.toList + hand) 0
  listed : Listed r.1
  handed : ∀ x ∈ r.2, r.1.Handed x

lemma rotate_straight (i : Bucket) (wasFresh : Bool) (h : Straight q hand lag) :
    Straight (q.rotate i wasFresh) hand lag := by
  have h' := h.modify i (f := fun f => { f with deficit := f.deficit + QUANTUM })
    fun _ => ⟨rfl, rfl⟩
  cases wasFresh <;>
    exact h'.same (fun _ => ⟨rfl, rfl⟩) ⟨rfl, rfl, rfl⟩ ⟨rfl, rfl, rfl, rfl⟩ rfl rfl

lemma unlist_straight (i : Bucket) (wasFresh : Bool) (h : Straight q hand lag) :
    Straight (q.unlist i wasFresh) hand lag := by
  have h' : Straight (q.popList wasFresh) hand lag := by
    cases wasFresh <;>
      exact h.same (fun _ => ⟨rfl, rfl⟩) ⟨rfl, rfl, rfl⟩ ⟨rfl, rfl, rfl, rfl⟩ rfl rfl
  exact (h'.modify i (f := fun f => { f with listed := false }) fun _ => ⟨rfl, rfl⟩).note
    fun _ _ => rfl

lemma deliver_straight (i : Bucket) (x : Queued) (h : Straight q hand lag) :
    Straight (q.deliver i x) hand lag := by
  refine (h.modify i (f := fun f => { f with deficit := f.deficit - x.packet.length })
    fun _ => ⟨rfl, rfl⟩).note fun fate hf => ?_
  simp [Event.gone, hf.symm]

/-- A turn keeps the books, and what it ends with is accounted for. -/
lemma turn_served {r : Inner ⊕ (Inner × Option Queued)} (h : Straight q hand 0) (hl : Listed q)
    (ht : Turn divSqrt now q r) :
    Sum.elim (fun q' => Straight q' hand 0 ∧ Listed q') (Served hand) r := by
  have hnoted : ∀ i, Straight (q.note (.selected i)) hand 0 ∧ Listed (q.note (.selected i)) :=
    fun i => ⟨h.note fun _ _ => rfl, hl.once, hl.busy⟩
  cases ht with
  | idle hfront =>
    exact ⟨by simpa [seqs] using h, hl, fun x hx => absurd hx (Option.not_mem_none x)⟩
  | @rotate i wasFresh hfront hdeficit =>
    exact ⟨rotate_straight i wasFresh (hnoted i).1, (hnoted i).2.rotate hfront⟩
  | @dry i wasFresh after hfront hdeficit hcodel =>
    have hpassed := passed_of_codel divSqrt (hnoted i).1 hcodel
    have hdrained := drained_of_codel divSqrt hcodel
    have hfront' : after.front = some (i, wasFresh) := (front_congr hdrained).trans hfront
    exact ⟨unlist_straight i wasFresh (by simpa [seqs] using hpassed.straight),
      ((hnoted i).2.drained hdrained).unlist hfront' (hpassed.dry rfl)⟩
  | @deliver i wasFresh after x hfront hdeficit hcodel =>
    have hpassed := passed_of_codel divSqrt (hnoted i).1 hcodel
    have hdrained := drained_of_codel divSqrt hcodel
    exact ⟨deliver_straight i x hpassed.straight, ((hnoted i).2.drained hdrained).deliver i x,
      hpassed.handed⟩

lemma dequeue_served (now : Instant) (h : Straight q hand 0) (hl : Listed q) :
    Served hand (q.dequeue divSqrt now) :=
  dequeue_rule divSqrt (fun _ _ hq ht _ => turn_served divSqrt hq.1 hq.2 ht) ⟨h, hl⟩

lemma enqueue_arrived (q : Inner) (packet : Packet) (now : Instant) :
    (q.enqueue packet now).arrived = q.arrived ++ [packet] := by
  obtain ⟨q2, hdrained, hjoins⟩ := q.enqueue_joins packet now
  rw [hjoins, join_arrived, ← hdrained.arrived]
  rfl

lemma turn_arrived {r : Inner ⊕ (Inner × Option Queued)} (ht : Turn divSqrt now q r) :
    (r.elim id Prod.fst).arrived = q.arrived := by
  cases ht with
  | idle _ => rfl
  | @rotate i wasFresh _ _ => cases wasFresh <;> rfl
  | @dry i wasFresh after _ _ hcodel =>
    have hdrained := drained_of_codel divSqrt hcodel
    cases wasFresh <;> exact hdrained.arrived
  | @deliver i wasFresh after x _ _ hcodel =>
    have hdrained := drained_of_codel divSqrt hcodel
    exact hdrained.arrived

lemma dequeue_arrived (q : Inner) (now : Instant) :
    (q.dequeue divSqrt now).1.arrived = q.arrived := by
  refine dequeue_rule divSqrt (I := fun q₁ => q₁.arrived = q.arrived)
    (Q := fun r => r.1.arrived = q.arrived) (fun q₁ r hq ht _ => ?_) rfl
  have harrived := (turn_arrived divSqrt ht).trans hq
  cases r <;> exact harrived

/-- A mark leaves a packet as long as it was. -/
lemma Handed.length_le (h : q.Handed x) {L : ℕ} (hshort : ∀ p ∈ q.arrived, p.length ≤ L) :
    x.packet.length ≤ L := by
  obtain ⟨p, hp, he⟩ := h
  have hle := hshort p (List.mem_of_getElem? hp)
  rcases he with he | he
  · rwa [he]
  · rwa [markCongestion_length he]

lemma Handed.same (h : q.Handed x) (ha : q'.arrived = q.arrived) : q'.Handed x := by
  unfold Handed
  rw [ha]
  exact h

lemma Handed.mono (h : q.Handed x) {more : List Packet}
    (ha : q'.arrived = q.arrived ++ more) : q'.Handed x := by
  obtain ⟨p, hp, he⟩ := h
  refine ⟨p, ?_, he⟩
  rw [ha, List.getElem?_append_left (List.getElem?_eq_some_iff.mp hp).1]
  exact hp

end Inner

/-! ### Runs -/

/-- The packets a run enqueues, in order. -/
def enqueued (ops : List (Duration × Op)) : List Packet :=
  ops.filterMap fun
    | (_, .enqueue packet) => some packet
    | _ => none

lemma enqueued_append (ops ops' : List (Duration × Op)) :
    enqueued (ops ++ ops') = enqueued ops ++ enqueued ops' := List.filterMap_append

/-- The books of a run are straight. -/
structure Books (s : Sim) : Prop where
  straight : Straight s.inner (seqs s.out) 0
  listed : Listed s.inner
  handed : ∀ x ∈ s.out, s.inner.Handed x

namespace Books

variable (divSqrt : Duration → ℕ → Duration)

lemma init (start : Instant) : Books (.init start) := ⟨.new, .new, nofun⟩

lemma step {s : Sim} (h : Books s) (op : Duration × Op) : Books (s.step divSqrt op) := by
  obtain ⟨wait, packet | _ | age | rtt⟩ := op
  · rw [Sim.step_enqueue]
    exact ⟨Inner.enqueue_straight packet _ h.straight, h.listed.enqueue packet _,
      fun x hx => (h.handed x hx).mono (Inner.enqueue_arrived _ _ _)⟩
  · have hs := Inner.dequeue_served divSqrt (s.clock + wait) h.straight h.listed
    have ha := Inner.dequeue_arrived divSqrt s.inner (s.clock + wait)
    rw [Sim.step_dequeue]
    refine ⟨?_, hs.listed, fun x hx => ?_⟩
    · have := hs.straight
      rwa [add_comm (seqs _) (seqs s.out), ← seqs_append] at this
    · rcases List.mem_append.mp hx with hx | hx
      · exact (h.handed x hx).same ha
      · exact hs.handed x (Option.mem_toList.mp hx)
  · have hd := Inner.dropOlderThan_drained s.inner (s.clock + wait) age
    have hs := Inner.dropOlderThan_straight (s.clock + wait) age h.straight
    rw [Sim.step_dropOlderThan]
    generalize s.inner.dropOlderThan (s.clock + wait) age = r at hd hs
    exact ⟨hs, h.listed.drained hd, fun x hx => (h.handed x hx).same hd.arrived⟩
  · rw [Sim.step_observeRtt]
    exact ⟨h.straight.same (fun _ => ⟨rfl, rfl⟩) ⟨rfl, rfl, rfl⟩ ⟨rfl, rfl, rfl, rfl⟩ rfl rfl,
      ⟨h.listed.once, h.listed.busy⟩, h.handed⟩

lemma run (start : Instant) (ops : List (Duration × Op)) :
    Books (.run divSqrt (.init start) ops) :=
  Sim.run_inv divSqrt (fun _ op h => h.step divSqrt op) (init start) ops

end Books

variable (divSqrt : Duration → ℕ → Duration)

lemma Sim.step_arrived (s : Sim) (op : Duration × Op) :
    (s.step divSqrt op).inner.arrived = s.inner.arrived ++ enqueued [op] := by
  obtain ⟨wait, packet | _ | age | rtt⟩ := op
  · rw [step_enqueue, Inner.enqueue_arrived]
    rfl
  · rw [step_dequeue, Inner.dequeue_arrived]
    exact (List.append_nil _).symm
  · rw [step_dropOlderThan, (Inner.dropOlderThan_drained s.inner _ age).arrived]
    exact (List.append_nil _).symm
  · exact (List.append_nil _).symm

lemma Sim.run_arrived (s : Sim) (ops : List (Duration × Op)) :
    (s.run divSqrt ops).inner.arrived = s.inner.arrived ++ enqueued ops := by
  induction ops generalizing s with
  | nil => simp [enqueued]
  | cons op ops ih =>
    rw [Sim.run_cons, ih, Sim.step_arrived, List.append_assoc, ← enqueued_append]
    rfl

/-- **Nothing is lost and nothing is counted twice.** In every run from the empty queue the
bytes and packets are the totals they claim to be, no subtraction goes below zero, the
service lists are what the buckets say they are, and the packets enqueued are, each exactly
once, waiting, handed out, or in one of the four drop counters. -/
theorem queue_books_balance (start : Instant) (ops : List (Duration × Op)) :
    let s := Sim.run divSqrt (.init start) ops
    let q := s.inner
    (∀ i, (q.flows i).bytes = size (q.flows i).packets) ∧
    q.bytes = ∑ i, (q.flows i).bytes ∧
    q.packets = ∑ i, (q.flows i).packets.length ∧
    (∀ i, (q.fresh ++ q.backlogged).count i = if (q.flows i).listed then 1 else 0) ∧
    (∀ i, (q.flows i).packets ≠ [] → (q.flows i).listed = true) ∧
    q.faulted = false ∧
    q.arrived = enqueued ops ∧
    q.waiting + seqs s.out + gone .overLimit q.log + gone .overTarget q.log
      + gone .thinned q.log + gone .stale q.log = Multiset.range (enqueued ops).length ∧
    ((gone .overLimit q.log).card = q.overLimit ∧ (gone .overTarget q.log).card = q.overTarget ∧
      (gone .thinned q.log).card = q.thinned ∧ (gone .stale q.log).card = q.stale) ∧
    (∀ i, ∀ x ∈ (q.flows i).packets, (enqueued ops)[x.seq]? = some x.packet) ∧
    (∀ x ∈ s.out, ∃ p, (enqueued ops)[x.seq]? = some p ∧
      (x.packet = p ∨ markCongestion p = some x.packet)) ∧
    (enqueued ops).length
      = q.packets + s.out.length + q.overLimit + q.overTarget + q.thinned + q.stale := by
  intro s q
  have hb := Books.run divSqrt start ops
  have ha : q.arrived = enqueued ops := by
    exact (Sim.run_arrived divSqrt (.init start) ops).trans (List.nil_append _)
  have hc := fun fate hf => hb.straight.counted fate hf
  have h1 : (gone .overLimit q.log).card = q.overLimit := hc .overLimit (by decide)
  have h2 : (gone .overTarget q.log).card = q.overTarget := hc .overTarget (by decide)
  have h3 : (gone .thinned q.log).card = q.thinned := hc .thinned (by decide)
  have h4 : (gone .stale q.log).card = q.stale := hc .stale (by decide)
  have hledger : q.waiting + seqs s.out + gone .overLimit q.log + gone .overTarget q.log
      + gone .thinned q.log + gone .stale q.log = Multiset.range (enqueued ops).length := by
    rw [← ha, ← hb.straight.ledger]
    simp only [Inner.lost, q, s]
    abel
  have hwait : q.waiting.card = q.packets := by
    rw [hb.straight.packets]
    simp [Inner.waiting, seqs, q, s]
  have hsum := congrArg Multiset.card hledger
  simp only [Multiset.card_add, Multiset.card_range, hwait, h1, h2, h3, h4] at hsum
  refine ⟨hb.straight.flowBytes, hb.straight.bytes, hb.straight.packets, hb.listed.once,
    hb.listed.busy, hb.straight.sound, ha, hledger, ⟨h1, h2, h3, h4⟩, ?_, ?_, ?_⟩
  · exact ha ▸ hb.straight.genuine
  · exact ha ▸ hb.handed
  · rw [← hsum]
    simp [seqs]

end Masqr.Queue
