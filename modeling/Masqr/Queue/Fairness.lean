import Masqr.Lib.Alternating
import Masqr.Queue.NewFlow

/-!
Two busy buckets get the same share.

What a bucket has sent and the credit it has left are what it was granted: a quantum each time it
was rotated. Buckets that stay on the list of the backlogged ones are rotated in turns, whatever
fresh ones are served between them, and a credit is never far from zero.
-/

namespace Masqr.Queue

open Masqr.Lib

/-- The bytes this event hands out from a bucket. -/
def Event.sentBytes (i : Bucket) : Event → ℕ
  | .left j _ len .delivered => if j = i then len else 0
  | _ => 0

/-- The bytes handed out from a bucket. -/
def sentBytes (i : Bucket) (log : List Event) : ℕ := (log.map (Event.sentBytes i)).sum

/-- The bucket is not taken off its list. -/
def Stays (i : Bucket) (log : List Event) : Prop := ∀ wasFresh, .ranDry i wasFresh ∉ log

lemma sentBytes_cons (i : Bucket) (e : Event) (log : List Event) :
    sentBytes i (e :: log) = e.sentBytes i + sentBytes i log := by simp [sentBytes]

lemma sentBytes_idle (i : Bucket) {more : List Event} (h : ∀ e ∈ more, e.ofService = false)
    (log : List Event) : sentBytes i (more ++ log) = sentBytes i log := by
  have hzero : ∀ e ∈ more, e.sentBytes i = 0 := fun e he => by
    have hidle := h e he
    cases e with
    | left j seq len fate => cases fate <;> first | rfl | cases hidle
    | _ => rfl
  have hsum : (more.map (Event.sentBytes i)).sum = 0 := by
    rw [List.map_congr_left hzero]
    simp
  unfold sentBytes
  rw [List.map_append, List.sum_append, hsum, Nat.zero_add]

/-! ### What a bucket is granted -/

/-- What a bucket has sent since the log was `old`, with the credit it has left. -/
def Inner.granted (q : Inner) (i : Bucket) (old : List Event) : ℤ :=
  sentBytes i (since old q.log) + (q.flows i).deficit

namespace Inner

variable {q q' : Inner} {i k : Bucket} {old : List Event} {wasFresh : Bool}

lemma granted_congr (hlog : q'.log = q.log) (hd : (q'.flows i).deficit = (q.flows i).deficit) :
    q'.granted i old = q.granted i old := by
  unfold granted
  rw [hlog, hd]

lemma granted_drained (hk : old <:+ q.log) (hq : Drained q q') :
    q'.granted i old = q.granted i old := by
  obtain ⟨-, more, hmore, hidle⟩ := hq.since hk
  unfold granted
  rw [hmore, sentBytes_idle i hidle, hq.deficit]

lemma granted_note (hk : old <:+ q.log) {e : Event} (he : e.sentBytes i = 0) :
    (q.note e).granted i old = q.granted i old := by
  unfold granted
  rw [note_log, since_cons hk, sentBytes_cons, he, Nat.zero_add, note_flows]

lemma granted_rotate (q : Inner) (i k : Bucket) (wasFresh : Bool) :
    (q.rotate k wasFresh).granted i old
      = q.granted i old + if k = i then (QUANTUM : ℤ) else 0 := by
  have hlog : (q.rotate k wasFresh).log = q.log := by cases wasFresh <;> rfl
  unfold granted
  rw [hlog, rotate_flows]
  by_cases hi : k = i
  · subst hi
    rw [Function.update_self, if_pos rfl]
    dsimp only
    ring
  · rw [Function.update_of_ne (Ne.symm hi), if_neg hi, add_zero]

lemma granted_unlist (hk : old <:+ q.log) :
    (q.unlist k wasFresh).granted i old = q.granted i old := by
  have hlog : (q.unlist k wasFresh).log = .ranDry k wasFresh :: q.log := by cases wasFresh <;> rfl
  have hd : ((q.unlist k wasFresh).flows i).deficit = (q.flows i).deficit := by
    by_cases hi : i = k <;> simp [unlist, hi]
  unfold granted
  rw [hlog, hd, since_cons hk, sentBytes_cons]
  simp [Event.sentBytes]

/-- A packet that is sent is paid for. -/
lemma granted_deliver (hk : old <:+ q.log) (x : Queued) :
    (q.deliver k x).granted i old = q.granted i old := by
  have hlog : (q.deliver k x).log = .left k x.seq x.packet.length .delivered :: q.log := rfl
  unfold granted
  rw [hlog, since_cons hk, sentBytes_cons]
  by_cases hi : k = i
  · subst hi
    simp only [deliver, note_flows, modify_flows, Function.update_self, Event.sentBytes, if_pos]
    push_cast
    ring
  · simp [deliver, Event.sentBytes, hi, Ne.symm hi]

end Inner

/-! ### Shares -/

/-- Since the log was `old`, the buckets have had a quantum for each of their turns, and they have
been rotated in turns. -/
structure Sharing (i j : Bucket) (a b : ℤ) (old : List Event) (q : Inner) : Prop where
  kept : old <:+ q.log
  listed : Listed q
  turns : ∃ n m : ℕ, Alternating i j n m q.backlogged ∧
    q.granted i old = a + QUANTUM * n ∧ q.granted j old = b + QUANTUM * m

namespace Sharing

variable {i j k : Bucket} {a b : ℤ} {old : List Event} {q q' : Inner} {wasFresh : Bool}

lemma drained (h : Sharing i j a b old q) (hq : Drained q q') : Sharing i j a b old q' := by
  obtain ⟨n, m, hturns, hi, hj⟩ := h.turns
  refine ⟨(hq.since h.kept).1, h.listed.drained hq, n, m, hq.backlogged ▸ hturns, ?_, ?_⟩
  · rw [Inner.granted_drained h.kept hq, hi]
  · rw [Inner.granted_drained h.kept hq, hj]

lemma selected (h : Sharing i j a b old q) (k : Bucket) :
    Sharing i j a b old (q.note (.selected k)) := by
  obtain ⟨n, m, hturns, hi, hj⟩ := h.turns
  refine ⟨h.kept.trans (List.suffix_cons _ _), ⟨h.listed.once, h.listed.busy⟩, n, m, hturns, ?_, ?_⟩
  · rw [Inner.granted_note h.kept rfl, hi]
  · rw [Inner.granted_note h.kept rfl, hj]

lemma onList (h : Sharing i j a b old q) : i ∈ q.backlogged ∧ j ∈ q.backlogged := by
  obtain ⟨n, m, hturns, -⟩ := h.turns
  exact hturns.mem

/-- A fresh bucket that is rotated goes behind them all, and one of the backlogged has its turn. -/
lemma rotate (h : Sharing i j a b old q) (hij : i ≠ j) (hf : q.front = some (k, wasFresh)) :
    Sharing i j a b old (q.rotate k wasFresh) := by
  obtain ⟨n, m, hturns, hi, hj⟩ := h.turns
  obtain ⟨-, hnf, hnb⟩ := Waiting.front_once h.listed hf
  have hlog : (q.rotate k wasFresh).log = q.log := by cases wasFresh <;> rfl
  have hnext : Alternating i j (if k = i then n + 1 else n) (if k = j then m + 1 else m)
      (q.rotate k wasFresh).backlogged := by
    rw [(Inner.rotate_lists q k wasFresh).2]
    rcases Inner.front_cases hf with ⟨rfl, r, hr⟩ | ⟨rfl, -, r, hr⟩
    · -- it is on no list of the backlogged ones
      have hi : k ≠ i := fun he => hnb (he ▸ hturns.mem.1)
      have hj : k ≠ j := fun he => hnb (he ▸ hturns.mem.2)
      rw [if_neg hi, if_neg hj]
      exact hturns.append [k]
    · have hpopped : (q.popList false).backlogged = r := by simp [Inner.popList, hr]
      rw [hpopped] at hnb ⊢
      exact (hr ▸ hturns).served hnb hij
  refine ⟨hlog ▸ h.kept, h.listed.rotate hf, _, _, hnext, ?_, ?_⟩
  · rw [Inner.granted_rotate, hi]
    split_ifs <;> push_cast <;> ring
  · rw [Inner.granted_rotate, hj]
    split_ifs <;> push_cast <;> ring

lemma unlist (h : Sharing i j a b old q) (hf : q.front = some (k, wasFresh))
    (hdry : (q.flows k).packets = []) (hi : k ≠ i) (hj : k ≠ j) :
    Sharing i j a b old (q.unlist k wasFresh) := by
  obtain ⟨n, m, hturns, hgi, hgj⟩ := h.turns
  have hlog : (q.unlist k wasFresh).log = .ranDry k wasFresh :: q.log := by cases wasFresh <;> rfl
  have hnext : Alternating i j n m (q.unlist k wasFresh).backlogged := by
    change Alternating i j n m (q.popList wasFresh).backlogged
    rcases Inner.front_cases hf with ⟨rfl, -, -⟩ | ⟨rfl, -, r, hr⟩
    · exact hturns
    · have hpopped : (q.popList false).backlogged = r := by simp [Inner.popList, hr]
      rw [hpopped]
      exact (hr ▸ hturns).tail hi hj
  refine ⟨?_, h.listed.unlist hf hdry, n, m, hnext, ?_, ?_⟩
  · rw [hlog]
    exact h.kept.trans (List.suffix_cons _ _)
  · rw [Inner.granted_unlist h.kept, hgi]
  · rw [Inner.granted_unlist h.kept, hgj]

lemma deliver (h : Sharing i j a b old q) (k : Bucket) (x : Queued) :
    Sharing i j a b old (q.deliver k x) := by
  obtain ⟨n, m, hturns, hi, hj⟩ := h.turns
  refine ⟨h.kept.trans (List.suffix_cons _ _), h.listed.deliver k x, n, m, hturns, ?_, ?_⟩
  · rw [Inner.granted_deliver h.kept, hi]
  · rw [Inner.granted_deliver h.kept, hj]

/-- A packet arrives. The two are on a list already, so their credit stays as it is. -/
lemma enqueue (h : Sharing i j a b old q) (packet : Packet) (now : Instant) :
    Sharing i j a b old (q.enqueue packet now) := by
  obtain ⟨q2, hdrained, hjoins⟩ := q.enqueue_joins packet now
  have h2 := h.drained hdrained
  obtain ⟨n, m, hturns, hi, hj⟩ := h2.turns
  have hsame : ∀ k ∈ q2.backlogged,
      (q.enqueue packet now).granted k old = q2.granted k old := fun k hk => by
    have hlisted : (q2.flows k).listed = true := by
      have hcount := h2.listed.once k
      by_contra hoff
      rw [if_neg hoff, List.count_eq_zero] at hcount
      exact hcount (List.mem_append_right _ hk)
    refine Inner.granted_congr (by rw [hjoins, Inner.join_log, Inner.push_log]) ?_
    rw [hjoins, Inner.join_deficit, Inner.push_listed, Inner.push_deficit, if_neg]
    rintro ⟨rfl, hoff⟩
    rw [hlisted] at hoff
    cases hoff
  refine ⟨?_, h.listed.enqueue packet now, n, m, ?_, ?_, ?_⟩
  · rw [hjoins, Inner.join_log, Inner.push_log]
    exact h2.kept
  · rw [hjoins, Inner.join_backlogged, Inner.push_backlogged]
    exact hturns
  · rw [hsame i h2.onList.1, hi]
  · rw [hsame j h2.onList.2, hj]

variable (divSqrt : Duration → ℕ → Duration) {hand : Multiset ℕ} {now : Instant}

lemma turn {r : Inner ⊕ (Inner × Option Queued)} (h : Sharing i j a b old q) (hij : i ≠ j)
    (hs : Straight q hand 0) (ht : Inner.Turn divSqrt now q r)
    (hi : Stays i (since old (r.elim id Prod.fst).log))
    (hj : Stays j (since old (r.elim id Prod.fst).log)) :
    Sharing i j a b old (r.elim id Prod.fst) := by
  cases ht with
  | idle _ => exact h
  | @rotate k wasFresh hfront _ => exact (h.selected k).rotate hij hfront
  | @dry k wasFresh after hfront _ hcodel =>
    have hdrained := Inner.drained_of_codel divSqrt hcodel
    have hnoted : Straight (q.note (.selected k)) hand 0 := hs.note fun _ _ => rfl
    have hpassed := Inner.passed_of_codel divSqrt hnoted hcodel
    have hafter := (h.selected k).drained hdrained
    have hshown : .ranDry k wasFresh ∈ since old (after.unlist k wasFresh).log := by
      have hlog : (after.unlist k wasFresh).log = .ranDry k wasFresh :: after.log := by
        cases wasFresh <;> rfl
      rw [hlog, since_cons hafter.kept]
      exact List.mem_cons_self
    refine hafter.unlist ((Inner.front_congr hdrained).trans hfront) (hpassed.dry rfl) ?_ ?_
    · rintro rfl
      exact hi wasFresh hshown
    · rintro rfl
      exact hj wasFresh hshown
  | @deliver k wasFresh after x _ _ hcodel =>
    exact ((h.selected k).drained (Inner.drained_of_codel divSqrt hcodel)).deliver k x

lemma dequeue (h : Sharing i j a b old q) (hij : i ≠ j) (hs : Straight q hand 0)
    (hi : Stays i (since old (q.dequeue divSqrt now).1.log))
    (hj : Stays j (since old (q.dequeue divSqrt now).1.log)) :
    Sharing i j a b old (q.dequeue divSqrt now).1 := by
  refine Inner.dequeue_rule divSqrt
    (I := fun q₁ => Sharing i j a b old q₁ ∧ Straight q₁ hand 0)
    (Q := fun r => Sharing i j a b old r.1) (fun q₁ r hq ht hlog => ?_) ⟨h, hs⟩
  obtain ⟨hshare, hstraight⟩ := hq
  have hserved := Inner.turn_served divSqrt hstraight hshare.listed ht
  have hsub := since_subset (hshare.kept.trans (Inner.turn_log divSqrt ht)) hlog
  have hnext := hshare.turn divSqrt hij hstraight ht (fun wasFresh hm => hi wasFresh (hsub hm))
    fun wasFresh hm => hj wasFresh (hsub hm)
  rcases r with q₂ | r
  · exact ⟨hnext, hserved.1⟩
  · exact hnext

lemma step {s : Sim} (h : Sharing i j a b old s.inner) (hij : i ≠ j) (hb : Books s)
    (op : Duration × Op) (hi : Stays i (since old (s.step divSqrt op).inner.log))
    (hj : Stays j (since old (s.step divSqrt op).inner.log)) :
    Sharing i j a b old (s.step divSqrt op).inner := by
  obtain ⟨wait, packet | _ | age | rtt⟩ := op
  · exact h.enqueue packet _
  · exact h.dequeue divSqrt hij hb.straight hi hj
  · simp only [Sim.step_dropOlderThan]
    exact h.drained (Inner.dropOlderThan_drained s.inner _ age)
  · exact ⟨h.kept, ⟨h.listed.once, h.listed.busy⟩, h.turns⟩

lemma run {s : Sim} (h : Sharing i j a b old s.inner) (hij : i ≠ j) (hb : Books s)
    (ops : List (Duration × Op)) (hi : Stays i (since old (s.run divSqrt ops).inner.log))
    (hj : Stays j (since old (s.run divSqrt ops).inner.log)) :
    Sharing i j a b old (s.run divSqrt ops).inner := by
  induction ops generalizing s with
  | nil => exact h
  | cons op ops ih =>
    have hsub := since_subset (h.kept.trans (s.step_log divSqrt op))
      ((s.step divSqrt op).run_log divSqrt ops)
    have hnext := h.step divSqrt hij hb op (fun wasFresh hm => hi wasFresh (hsub hm))
      fun wasFresh hm => hj wasFresh (hsub hm)
    exact ih hnext (hb.step divSqrt op) hi hj

end Sharing

/-! ### Debts -/

/-- A bucket owes no more than the longest packet there has been. -/
def Solvent (q : Inner) : Prop :=
  ∀ L : ℕ, (∀ p ∈ q.arrived, p.length ≤ L) → ∀ i, -(L : ℤ) ≤ (q.flows i).deficit

namespace Solvent

variable {q q' : Inner}

lemma drained (h : Solvent q) (hq : Drained q q') : Solvent q' := fun L hL i => by
  rw [hq.deficit]
  exact h L (hq.arrived ▸ hL) i

lemma enqueue (h : Solvent q) (packet : Packet) (now : Instant) :
    Solvent (q.enqueue packet now) := fun L hL j => by
  obtain ⟨q2, hdrained, hjoins⟩ := q.enqueue_joins packet now
  rw [Inner.enqueue_arrived] at hL
  have hcredit := h.drained hdrained L
    (fun p hp => hL p (List.mem_append_left _ (hdrained.arrived ▸ hp))) j
  rw [hjoins, Inner.join_deficit, Inner.push_deficit]
  split_ifs
  · omega
  · exact hcredit

lemma dequeue {hand : Multiset ℕ} (h : Solvent q) (divSqrt : Duration → ℕ → Duration)
    (now : Instant) (hs : Straight q hand 0) (hl : Listed q) :
    Solvent (q.dequeue divSqrt now).1 := by
  refine Inner.dequeue_rule divSqrt (I := fun q₁ => (Straight q₁ hand 0 ∧ Listed q₁) ∧ Solvent q₁)
    (Q := fun r => Solvent r.1) (fun q₁ r hq ht _ => ?_) ⟨⟨hs, hl⟩, h⟩
  obtain ⟨⟨hstraight, hlisted⟩, hsolvent⟩ := hq
  have hserved := Inner.turn_served divSqrt hstraight hlisted ht
  have hnext : Solvent (r.elim id Prod.fst) := fun L hL j => by
    have hcredit := hsolvent L (Inner.turn_arrived divSqrt ht ▸ hL) j
    rcases Inner.turn_deficit divSqrt ht j with heq | ⟨-, heq⟩ | ⟨hpos, q', x, rfl, heq⟩
    · rwa [heq]
    · rw [heq]
      omega
    · have hlen : x.packet.length ≤ L := (hserved.handed x rfl).length_le hL
      change -(L : ℤ) ≤ (q'.flows j).deficit
      omega
  rcases r with q₂ | r
  · exact ⟨hserved, hnext⟩
  · exact hnext

lemma run (divSqrt : Duration → ℕ → Duration) (start : Instant) (ops : List (Duration × Op)) :
    Solvent (Sim.run divSqrt (.init start) ops).inner := by
  have hrun := Sim.run_inv divSqrt (I := fun s => Books s ∧ Solvent s.inner) (fun s op h => ?_)
    (s := .init start) ⟨.init start, fun L _ i => ?_⟩ ops
  · exact hrun.2
  · obtain ⟨hbooks, hsolvent⟩ := h
    refine ⟨hbooks.step divSqrt op, ?_⟩
    obtain ⟨wait, packet | _ | age | rtt⟩ := op
    · exact hsolvent.enqueue packet _
    · exact hsolvent.dequeue divSqrt _ hbooks.straight hbooks.listed
    · simp only [Sim.step_dropOlderThan]
      exact hsolvent.drained (Inner.dropOlderThan_drained s.inner _ age)
    · exact hsolvent
  · simp [Sim.init, Inner.new]

end Solvent

/-- A credit is worth a quantum at most, and a debt the longest packet. -/
lemma credit_bounds (divSqrt : Duration → ℕ → Duration) (start : Instant)
    {ops : List (Duration × Op)} {L : ℕ} (hlen : ∀ p ∈ enqueued ops, p.length ≤ L) (i : Bucket) :
    -(L : ℤ) ≤ ((Sim.run divSqrt (.init start) ops).inner.flows i).deficit ∧
      ((Sim.run divSqrt (.init start) ops).inner.flows i).deficit ≤ QUANTUM := by
  have harrived : (Sim.run divSqrt (.init start) ops).inner.arrived = enqueued ops :=
    (Sim.run_arrived divSqrt (.init start) ops).trans (List.nil_append _)
  exact ⟨Solvent.run divSqrt start ops L (harrived ▸ hlen) i, Frugal.run divSqrt start ops i⟩

lemma Sharing.outset {i j : Bucket} {q : Inner} (hl : Listed q)
    (hfirst : [i, j].Sublist q.backlogged) :
    Sharing i j (q.flows i).deficit (q.flows j).deficit q.log q := by
  refine ⟨List.suffix_rfl, hl, 0, 0, .inl ⟨hfirst, rfl⟩, ?_, ?_⟩ <;>
    simp [Inner.granted, sentBytes]

/-- A turn more is a quantum, and each credit may be at either end of its range. -/
lemma Sharing.differ {i j : Bucket} {a b : ℤ} {old : List Event} {q : Inner} {L : ℕ}
    (h : Sharing i j a b old q) (ha : -(L : ℤ) ≤ a ∧ a ≤ QUANTUM) (hb : -(L : ℤ) ≤ b ∧ b ≤ QUANTUM)
    (hq : ∀ k, -(L : ℤ) ≤ (q.flows k).deficit ∧ (q.flows k).deficit ≤ QUANTUM) :
    |(sentBytes i (since old q.log) : ℤ) - sentBytes j (since old q.log)|
      ≤ 3 * QUANTUM + 2 * L := by
  obtain ⟨n, m, hturns, hi, hj⟩ := h.turns
  obtain ⟨hle, hle'⟩ := hturns.turns
  have hqi := hq i
  have hqj := hq j
  have hquantum : (QUANTUM : ℤ) = 1280 := rfl
  unfold Inner.granted at hi hj
  rw [abs_le]
  rw [hquantum] at hi hj ha hb hqi hqj ⊢
  constructor <;> omega

/-! ### What is handed out -/

/-- The bytes of those packets that were filed in a bucket. -/
def bytesFrom (arrived : List Packet) (i : Bucket) (l : List Queued) : ℕ :=
  size (l.filter fun x => filedIn arrived x.seq = some i)

lemma bytesFrom_append (arrived : List Packet) (i : Bucket) (l l' : List Queued) :
    bytesFrom arrived i (l ++ l') = bytesFrom arrived i l + bytesFrom arrived i l' := by
  rw [bytesFrom, List.filter_append, size_append]
  rfl

/-- What arrives later does not change where a packet was filed. -/
lemma bytesFrom_later {arrived : List Packet} {l : List Queued}
    (h : ∀ x ∈ l, x.seq < arrived.length) (more : List Packet) (i : Bucket) :
    bytesFrom (arrived ++ more) i l = bytesFrom arrived i l := by
  unfold bytesFrom
  refine congrArg size (List.filter_congr fun x hx => ?_)
  rw [filedIn_append (h x hx)]

section

variable (divSqrt : Duration → ℕ → Duration) {q : Inner} {now : Instant}

lemma sentBytes_drained {q' : Inner} (hq : Drained q q') (i : Bucket) :
    sentBytes i q'.log = sentBytes i q.log := by
  obtain ⟨more, hmore, hidle⟩ := hq.log
  rw [hmore, sentBytes_idle i hidle]

/-- The log shows the packet a turn sends as one from the bucket it was filed in. -/
lemma turn_sent {r : Inner ⊕ (Inner × Option Queued)} (h : Tidy q)
    (ht : Inner.Turn divSqrt now q r) (i : Bucket) :
    r.elim (fun q' => sentBytes i q'.log = sentBytes i q.log) fun r =>
      sentBytes i r.1.log = sentBytes i q.log + bytesFrom q.arrived i r.2.toList := by
  have hnoted : ∀ k, sentBytes i (q.note (.selected k)).log = sentBytes i q.log := fun k => by
    rw [Inner.note_log, sentBytes_cons]
    exact Nat.zero_add _
  cases ht with
  | idle _ => rfl
  | @rotate k wasFresh _ _ =>
    have hlog : ((q.note (.selected k)).rotate k wasFresh).log = (q.note (.selected k)).log := by
      cases wasFresh <;> rfl
    change sentBytes i ((q.note (.selected k)).rotate k wasFresh).log = _
    rw [hlog, hnoted]
  | @dry k wasFresh after _ _ hcodel =>
    have hlog : (after.unlist k wasFresh).log = .ranDry k wasFresh :: after.log := by
      cases wasFresh <;> rfl
    change sentBytes i (after.unlist k wasFresh).log = _
    rw [hlog, sentBytes_cons, sentBytes_drained (Inner.drained_of_codel divSqrt hcodel), hnoted]
    exact Nat.zero_add _
  | @deliver k wasFresh after x _ _ hcodel =>
    obtain ⟨z, hseq, hsub⟩ := Inner.codel_order divSqrt hcodel
    have hfiled : filedIn q.arrived x.seq = some k := by
      rw [← hseq]
      exact h.filed k z (hsub.subset List.mem_cons_self)
    have hbytes : bytesFrom q.arrived i [x] = if k = i then x.packet.length else 0 := by
      by_cases hk : k = i <;> simp [bytesFrom, size, hfiled, hk]
    change sentBytes i (.left k x.seq x.packet.length .delivered :: after.log) = _
    rw [sentBytes_cons, sentBytes_drained (Inner.drained_of_codel divSqrt hcodel), hnoted,
      Nat.add_comm]
    exact congrArg _ hbytes.symm

lemma dequeue_sent (h : Tidy q) (now : Instant) (i : Bucket) :
    sentBytes i (q.dequeue divSqrt now).1.log
      = sentBytes i q.log + bytesFrom q.arrived i (q.dequeue divSqrt now).2.toList := by
  refine Inner.dequeue_rule divSqrt
    (I := fun q₁ => (Tidy q₁ ∧ q₁.arrived = q.arrived) ∧ sentBytes i q₁.log = sentBytes i q.log)
    (Q := fun r => sentBytes i r.1.log = sentBytes i q.log + bytesFrom q.arrived i r.2.toList)
    (fun q₁ r hq ht _ => ?_) ⟨⟨h, rfl⟩, rfl⟩
  obtain ⟨⟨htidy, harrived⟩, hsame⟩ := hq
  have hsent := turn_sent divSqrt htidy ht i
  rcases r with q₂ | r
  · have hnew : q₂.arrived = q₁.arrived := Inner.turn_arrived divSqrt ht
    exact ⟨⟨htidy.of_sublist hnew (Inner.turn_sublist divSqrt ht), hnew.trans harrived⟩,
      hsent.trans hsame⟩
  · rw [hsame, harrived] at hsent
    exact hsent

/-- **The log shows what is handed out.** -/
theorem sentBytes_run (start : Instant) (ops : List (Duration × Op)) (i : Bucket) :
    let s := Sim.run divSqrt (.init start) ops
    sentBytes i s.inner.log = bytesFrom s.inner.arrived i s.out := by
  have hrun := Sim.run_inv divSqrt (I := fun s => InOrder s ∧
    sentBytes i s.inner.log = bytesFrom s.inner.arrived i s.out) (fun s op h => ?_)
    (s := .init start) ⟨.init start, rfl⟩ ops
  · exact hrun.2
  obtain ⟨horder, hshown⟩ := h
  refine ⟨horder.step divSqrt op, ?_⟩
  obtain ⟨wait, packet | _ | age | rtt⟩ := op
  · obtain ⟨q2, hdrained, hjoins⟩ := s.inner.enqueue_joins packet (s.clock + wait)
    rw [Sim.step_enqueue, Inner.enqueue_arrived, bytesFrom_later horder.known, ← hshown, hjoins,
      Inner.join_log, Inner.push_log, sentBytes_drained hdrained]
  · rw [Sim.step_dequeue, Inner.dequeue_arrived, bytesFrom_append, ← hshown]
    exact dequeue_sent divSqrt horder.tidy _ i
  · have hdrained := Inner.dropOlderThan_drained s.inner (s.clock + wait) age
    rw [Sim.step_dropOlderThan, sentBytes_drained hdrained, hdrained.arrived]
    exact hshown
  · exact hshown

/-- What the log has gained over a stretch of a run is what was handed out in it. -/
lemma sentBytes_since (start : Instant) (before after : List (Duration × Op)) (i : Bucket) :
    let s := Sim.run divSqrt (.init start) before
    let s' := s.run divSqrt after
    sentBytes i (since s.inner.log s'.inner.log)
      = bytesFrom s'.inner.arrived i (s'.out.drop s.out.length) := by
  intro s s'
  obtain ⟨new, hnew⟩ := s.run_log divSqrt after
  obtain ⟨out, hout⟩ := s.run_out divSqrt after
  have hbefore : sentBytes i s.inner.log = bytesFrom s.inner.arrived i s.out :=
    sentBytes_run divSqrt start before i
  have hafter : sentBytes i s'.inner.log = bytesFrom s'.inner.arrived i s'.out := by
    have hrun := sentBytes_run divSqrt start (before ++ after) i
    rwa [Sim.run_append] at hrun
  have hsum : sentBytes i s'.inner.log = sentBytes i new + sentBytes i s.inner.log := by
    rw [← hnew]
    simp [sentBytes]
  have hlater : bytesFrom s'.inner.arrived i s.out = bytesFrom s.inner.arrived i s.out := by
    rw [Sim.run_arrived divSqrt s after]
    exact bytesFrom_later (InOrder.run divSqrt start before).known _ i
  rw [← hout, bytesFrom_append, hlater, hsum] at hafter
  rw [← hnew, since_append, ← hout, List.drop_left]
  omega

end

/-- **Busy buckets get the same share.** Over any stretch of any run in which two buckets start
backlogged and are never unlisted, what is handed out from the one and from the other differs by
three quanta and two of the longest packets at most. -/
theorem busy_buckets_share (divSqrt : Duration → ℕ → Duration) (start : Instant)
    (before after : List (Duration × Op)) (i j : Bucket) (L : ℕ)
    (hlen : ∀ p ∈ enqueued (before ++ after), p.length ≤ L) :
    let s := Sim.run divSqrt (.init start) before
    let s' := s.run divSqrt after
    let recent := since s.inner.log s'.inner.log
    let out := s'.out.drop s.out.length
    i ∈ s.inner.backlogged → j ∈ s.inner.backlogged → Stays i recent → Stays j recent →
    |(bytesFrom s'.inner.arrived i out : ℤ) - bytesFrom s'.inner.arrived j out|
      ≤ 3 * QUANTUM + 2 * L := by
  intro s s' recent out hi hj hsi hsj
  have hbooks := Books.run divSqrt start before
  have hwhole : s' = Sim.run divSqrt (.init start) (before ++ after) :=
    (Sim.run_append divSqrt _ before after).symm
  have hs : ∀ k, -(L : ℤ) ≤ (s.inner.flows k).deficit ∧ (s.inner.flows k).deficit ≤ QUANTUM :=
    credit_bounds divSqrt start fun p hp => hlen p <| by
      rw [enqueued_append]
      exact List.mem_append_left _ hp
  have hs' : ∀ k, -(L : ℤ) ≤ (s'.inner.flows k).deficit ∧ (s'.inner.flows k).deficit ≤ QUANTUM :=
    hwhole ▸ credit_bounds divSqrt start hlen
  have hshown := sentBytes_since divSqrt start before after
  rw [← hshown i, ← hshown j]
  by_cases hij : i = j
  · rw [hij, sub_self, abs_zero]
    positivity
  · rcases pair_sublist hij hi hj with hfirst | hfirst
    · exact ((Sharing.outset hbooks.listed hfirst).run divSqrt hij hbooks after hsi hsj).differ
        (hs i) (hs j) hs'
    · rw [abs_sub_comm]
      exact ((Sharing.outset hbooks.listed hfirst).run divSqrt (Ne.symm hij) hbooks after hsj
        hsi).differ (hs j) (hs i) hs'

/-- A packet over a quantum long. -/
def longProbe (n : UInt8) : Packet := probe n ++ List.replicate 1280 0

/-- Two flows of long packets, once both have been rotated. -/
def busy : List (Duration × Op) :=
  List.replicate 4 (0, .enqueue (longProbe 1)) ++ List.replicate 4 (0, .enqueue (longProbe 2)) ++
    List.replicate 3 (0, .dequeue)

def twoMore : List (Duration × Op) := List.replicate 2 (0, .dequeue)

/-- Both send a packet, and neither runs dry. -/
theorem busy_buckets_share_both :
    |(bytesFrom ((Sim.run divRoot (.init 0) busy).run divRoot twoMore).inner.arrived patient
        (((Sim.run divRoot (.init 0) busy).run divRoot twoMore).out.drop
          (Sim.run divRoot (.init 0) busy).out.length) : ℤ)
      - bytesFrom ((Sim.run divRoot (.init 0) busy).run divRoot twoMore).inner.arrived
        (flowOf (probe 2)) (((Sim.run divRoot (.init 0) busy).run divRoot twoMore).out.drop
          (Sim.run divRoot (.init 0) busy).out.length)| ≤ 3 * QUANTUM + 2 * 1300 := by
  refine busy_buckets_share divRoot 0 busy twoMore patient (flowOf (probe 2)) 1300 ?_ ?_ ?_ ?_ ?_
  · decide +kernel
  · decide +kernel
  · decide +kernel
  · unfold Stays
    decide +kernel
  · unfold Stays
    decide +kernel

end Masqr.Queue
