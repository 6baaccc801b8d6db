import Masqr.Queue.Codel

/-!
A dequeue ends, and leaves nothing behind that it could have sent.

CoDel drops a packet only when more than a quantum of bytes is behind it, so there is always
another packet to take its place.
-/

namespace Masqr.Queue

open Masqr.Lib

variable (divSqrt : Duration → ℕ → Duration)

/-- The bytes of a bucket are those of its packets. -/
def Sized (i : Bucket) (q : Inner) : Prop := (q.flows i).bytes = size (q.flows i).packets

namespace Sized

variable {q q' : Inner} {i : Bucket} {now : Instant} {x : Queued} {o : Bool}

lemma retuned (h : Sized i q) (hq : Retuned q q') : Sized i q' := by
  obtain ⟨hpackets, hbytes, -⟩ := hq.flow i
  unfold Sized
  rw [hpackets, hbytes]
  exact h

lemma taken (h : Sized i q) (ht : q.Taken i now x o q') : Sized i q' := by
  have hsize : size (q.flows i).packets = x.packet.length + size (q'.flows i).packets := by
    rw [ht.packets]
    simp [size]
  unfold Sized at h ⊢
  rw [ht.bytes, h, hsize, Nat.add_sub_cancel_left]

lemma dropped (h : Sized i q) (x : Queued) : Sized i (q.dropOverTarget i x) := h

/-- A bucket with bytes to its name has a packet to take. -/
lemma take_ne_none (h : Sized i q) (hbytes : 0 < (q.flows i).bytes) : q.take i now ≠ none := by
  intro hnone
  have hempty := Inner.take_none hnone
  unfold Sized at h
  rw [hempty] at h
  have hzero : size [] = 0 := rfl
  omega

end Sized

namespace Inner

variable {q q' : Inner} {i : Bucket} {now : Instant} {x : Queued} {o : Bool}
variable {r : Option Queued}

/-- Where a packet in hand was overdue, there is another behind it. -/
lemma sends_some (h : Sends i now q x o q' r) (hsized : Sized i q)
    (hbehind : o = true → QUANTUM < (q.flows i).bytes) : r ≠ none := by
  induction h with
  | pass _ => exact Option.some_ne_none _
  | mark _ _ _ => exact Option.some_ne_none _
  | @drop start x before y overdue after more final r hbefore htake hafter _ ih =>
    have htaken := take_taken htake
    have hsized' : Sized i after := ((hsized.retuned hbefore.retuned).dropped x).taken htaken
    refine ih (hsized'.retuned hafter.retuned) fun hover => ?_
    subst hover
    rw [(hafter.retuned.flow i).2.1]
    exact htaken.behind
  | @dry start x before final hbefore hnone _ =>
    have hmore : 0 < ((before.dropOverTarget i x).flows i).bytes := by
      calc 0 < QUANTUM := by decide
        _ < (start.flows i).bytes := hbehind rfl
        _ = ((before.dropOverTarget i x).flows i).bytes := ((hbefore.retuned.flow i).2.1).symm
    exact absurd hnone (((hsized.retuned hbefore.retuned).dropped x).take_ne_none hmore)

/-- **CoDel sends from a bucket that is not empty.** -/
lemma codel_some (hsized : Sized i q) (h : (q.flows i).packets ≠ []) (now : Instant) :
    (q.codel divSqrt i now).2 ≠ none := by
  obtain ⟨⟨x, o, q'⟩, htake⟩ : ∃ taken, q.take i now = some taken := by
    refine Option.ne_none_iff_exists'.1 fun hnone => h (take_none hnone)
  have htaken := take_taken htake
  refine sends_some (codel_sends divSqrt htake) (hsized.taken htaken) fun hover => ?_
  subst hover
  exact htaken.behind

/-- Nowhere does CoDel come to a bucket it has dropped empty: it sends what it finds, there is a
packet to take after the first drop of an episode, and after each drop of one that goes on. And
the drops come to an end. -/
structure Fed (q : Inner) (i : Bucket) (now : Instant) : Prop where
  sends : (q.flows i).packets ≠ [] → (q.codel divSqrt i now).2 ≠ none
  first : ∀ x q', q.take i now = some (x, true, q') → (q'.dropOverTarget i x).take i now ≠ none
  onward : ∀ x q' n q'' y, q.take i now = some (x, true, q') →
    (dropLoop divSqrt i now).Turns (q', x) n (q'', y) →
    (q''.flows i).dropping = true → ((q''.countUp i).dropOverTarget i y).take i now ≠ none
  ends : ∀ x q', q.take i now = some (x, true, q') → ∃ n s, n ≤ (q'.flows i).packets.length ∧
    (dropLoop divSqrt i now).Turns (q', x) n s ∧
    (dropLoop divSqrt i now).body s = .inr ((dropLoop divSqrt i now).run (q', x))

/-- While an episode goes on, more than a quantum is behind the packet in hand. -/
lemma dropLoop_behind {s s' : Inner × Queued} (hsized : Sized i s.1)
    (hb : (dropLoop divSqrt i now).body s = .inl s') :
    Sized i s'.1 ∧ ((s'.1.flows i).dropping = true → QUANTUM < (s'.1.flows i).bytes) := by
  have hdropped := (hsized.retuned (countUp_retuned s.1 i)).dropped s.2
  cases dropLoop_turn divSqrt hb with
  | @again y after _ _ htake =>
    have htaken := take_taken htake
    have hkept := schedule_retuned divSqrt after i ((after.flows i).dropNext.getD now)
    refine ⟨(hdropped.taken htaken).retuned hkept, fun _ => ?_⟩
    rw [(hkept.flow i).2.1]
    exact htaken.behind
  | @eased y after _ _ htake =>
    refine ⟨(hdropped.taken (take_taken htake)).retuned (setDropping_retuned after i false),
      fun hdropping => ?_⟩
    simp [setDropping] at hdropping

lemma fed (hsized : Sized i q) (now : Instant) : Fed divSqrt q i now where
  sends h := codel_some divSqrt hsized h now
  first x q' htake := by
    have htaken := take_taken htake
    have hsized' : Sized i (q'.dropOverTarget i x) := (hsized.taken htaken).dropped x
    exact hsized'.take_ne_none (lt_trans (by decide) htaken.behind)
  onward x q' n q'' y htake hturns hdropping := by
    have htaken := take_taken htake
    obtain ⟨hsized'', hbehind⟩ : Sized i (q'', y).1 ∧
        (((q'', y).1.flows i).dropping = true → QUANTUM < ((q'', y).1.flows i).bytes) :=
      hturns.inv (I := fun s => Sized i s.1 ∧
          ((s.1.flows i).dropping = true → QUANTUM < (s.1.flows i).bytes))
        (fun s s' hs hb => dropLoop_behind divSqrt hs.1 hb)
        ⟨hsized.taken htaken, fun _ => htaken.behind⟩
    have hkept := countUp_retuned q'' i
    have hmore : 0 < (((q''.countUp i).dropOverTarget i y).flows i).bytes := by
      calc 0 < QUANTUM := by decide
        _ < (q''.flows i).bytes := hbehind hdropping
        _ = (((q''.countUp i).dropOverTarget i y).flows i).bytes := ((hkept.flow i).2.1).symm
    exact ((hsized''.retuned hkept).dropped y).take_ne_none hmore
  ends x q' _ := (dropLoop divSqrt i now).run_ends (q', x)

/-! ### The turns of a dequeue -/

/-- A turn that sends nothing leaves every packet where it was. -/
lemma turn_packets (hsized : ∀ i, Sized i q) (ht : Turn divSqrt now q (.inl q')) (j : Bucket) :
    (q'.flows j).packets = (q.flows j).packets := by
  cases ht with
  | @rotate i wasFresh _ _ => rw [rotate_packets, note_flows]
  | @dry i wasFresh after _ _ hcodel =>
    have hempty : ((q.note (.selected i)).flows i).packets = [] := by
      by_contra hmore
      have hnoted : Sized i (q.note (.selected i)) := hsized i
      have hsends := codel_some divSqrt hnoted hmore now
      rw [hcodel] at hsends
      exact hsends rfl
    rw [codel_empty divSqrt hempty] at hcodel
    cases hcodel
    rw [unlist_packets, note_flows]

/-- Where no bucket is listed none has a packet. -/
lemma empty_of_front_none (h : Listed q) (hfront : q.front = none) (i : Bucket) :
    (q.flows i).packets = [] := by
  by_contra hmore
  have hcount := h.once i
  rw [if_pos (h.busy i hmore)] at hcount
  have hlisted : i ∈ q.fresh ++ q.backlogged := List.count_pos_iff.1 (by omega)
  unfold front at hfront
  split at hfront
  · cases hfront
  · next hfresh =>
    rw [List.head?_eq_none_iff] at hfresh
    rw [Option.map_eq_none_iff, List.head?_eq_none_iff] at hfront
    rw [hfresh, hfront] at hlisted
    cases hlisted

/-- **Nothing is sent exactly when nothing waits.** -/
theorem dequeue_none_iff {hand : Multiset ℕ} (h : Straight q hand 0) (hl : Listed q)
    (now : Instant) : (q.dequeue divSqrt now).2 = none ↔ ∀ i, (q.flows i).packets = [] := by
  refine dequeue_rule divSqrt (I := fun q₁ => (Straight q₁ hand 0 ∧ Listed q₁) ∧
    ∀ i, (q₁.flows i).packets = (q.flows i).packets)
    (Q := fun r => r.2 = none ↔ ∀ i, (q.flows i).packets = []) (fun q₁ r hq ht _ => ?_)
    ⟨⟨h, hl⟩, fun _ => rfl⟩
  obtain ⟨hbooks, hsame⟩ := hq
  have hserved := turn_served divSqrt hbooks.1 hbooks.2 ht
  rcases r with q₂ | r
  · exact ⟨hserved, fun i => (turn_packets divSqrt hbooks.1.flowBytes ht i).trans (hsame i)⟩
  · have hempty : (∀ i, (q.flows i).packets = []) ↔ ∀ i, (q₁.flows i).packets = [] :=
      forall_congr' fun i => by rw [hsame i]
    change r.2 = none ↔ _
    rw [hempty]
    cases ht with
    | idle hfront => exact iff_of_true rfl (empty_of_front_none hbooks.2 hfront)
    | @deliver i wasFresh after x _ _ hcodel =>
      refine iff_of_false (Option.some_ne_none x) fun hnone => ?_
      have hnothing : ((q₁.note (.selected i)).flows i).packets = [] := hnone i
      rw [codel_empty divSqrt hnothing] at hcodel
      cases hcodel

end Inner

/-- **A dequeue does all the work there is.** From every state the queue can come to and at every
moment it ends, in no more turns than the credit of the buckets allows, and it ends without a
packet exactly when none waits. Wherever its turns take it CoDel finds a packet behind each it
drops, and every bucket that holds a packet is on a list. -/
theorem dequeue_conserves (start : Instant) (ops : List (Duration × Op)) (now : Instant) :
    let q := (Sim.run divSqrt (.init start) ops).inner
    (∃ n t, n ≤ q.turns ∧ (Inner.serve divSqrt now).Turns q n t ∧
      (Inner.serve divSqrt now).body t = .inr (q.dequeue divSqrt now)) ∧
    ((q.dequeue divSqrt now).2 = none ↔ ∀ i, (q.flows i).packets = []) ∧
    (∀ n t, (Inner.serve divSqrt now).Turns q n t → ∀ i,
      Inner.Fed divSqrt (t.note (.selected i)) i now ∧
      ((t.flows i).packets ≠ [] → i ∈ t.fresh ++ t.backlogged)) ∧
    ∀ i, ((q.dequeue divSqrt now).1.flows i).packets ≠ [] →
      i ∈ (q.dequeue divSqrt now).1.fresh ++ (q.dequeue divSqrt now).1.backlogged := by
  intro q
  have hbooks := Books.run divSqrt start ops
  have hon : ∀ {q' : Inner}, Listed q' → ∀ i, (q'.flows i).packets ≠ [] →
      i ∈ q'.fresh ++ q'.backlogged := fun hl i hi => by
    have hcount := hl.once i
    rw [if_pos (hl.busy i hi)] at hcount
    exact List.count_pos_iff.1 (by omega)
  refine ⟨(Inner.serve divSqrt now).run_ends q,
    Inner.dequeue_none_iff divSqrt hbooks.straight hbooks.listed now,
    fun n t hturns i => ?_, hon (Inner.dequeue_served divSqrt now hbooks.straight
      hbooks.listed).listed⟩
  obtain ⟨hs, hl⟩ := hturns.inv (I := fun q => Straight q _ 0 ∧ Listed q) (fun q q' hq hb => by
    have hkept := Inner.turn_served divSqrt hq.1 hq.2 (Inner.serve_turn divSqrt now q)
    rw [hb] at hkept
    exact hkept) ⟨hbooks.straight, hbooks.listed⟩
  have hnoted : Sized i (t.note (.selected i)) := hs.flowBytes i
  exact ⟨Inner.fed divSqrt hnoted now, hon hl i⟩

end Masqr.Queue
