import Masqr.Queue.Codel

/-!
How long a backlogged bucket waits for its turn.

What the other buckets may still send ahead of it is bounded by a budget for each of them:
what is left of the turns it can have before the waiting bucket comes up. A turn spends
the budget of the bucket that has it. The one thing that hands out budget from nothing is
a packet for a bucket that ran dry while it was fresh, since that bucket becomes fresh a
second time.
-/

namespace Masqr.Queue

open Masqr.Lib

/-- The bytes this event hands out from a bucket other than `b`. -/
def Event.otherBytes (b : Bucket) : Event → ℕ
  | .left i _ len .delivered => if i = b then 0 else len
  | _ => 0

/-- The bytes handed out from other buckets than `b`. -/
def otherBytes (b : Bucket) (log : List Event) : ℕ := (log.map (Event.otherBytes b)).sum

lemma otherBytes_cons (b : Bucket) (e : Event) (log : List Event) :
    otherBytes b (e :: log) = e.otherBytes b + otherBytes b log := by simp [otherBytes]

lemma otherBytes_idle (b : Bucket) {more : List Event} (h : ∀ e ∈ more, e.ofService = false)
    (log : List Event) : otherBytes b (more ++ log) = otherBytes b log := by
  induction more with
  | nil => rfl
  | cons e more ih =>
    have he := h e List.mem_cons_self
    have h0 : e.otherBytes b = 0 := by
      cases e with
      | left i seq len fate => cases fate <;> first | rfl | cases he
      | _ => rfl
    rw [List.cons_append, otherBytes_cons, h0, Nat.zero_add]
    exact ih fun e he => h e (List.mem_cons_of_mem _ he)

lemma mem_idle {more : List Event} (h : ∀ e ∈ more, e.ofService = false) {log : List Event}
    {e : Event} (he : e.ofService = true) : e ∈ more ++ log ↔ e ∈ log := by
  refine ⟨fun hm => ?_, List.mem_append_right more⟩
  rcases List.mem_append.mp hm with hm | hm
  · exact absurd ((h e hm).symm.trans he) (by decide)
  · exact hm

/-- What a log has gained since it was `old`. -/
def since (old log : List Event) : List Event := log.take (log.length - old.length)

@[simp] lemma since_append (old new : List Event) : since old (new ++ old) = new := by
  simp [since]

@[simp] lemma since_self (old : List Event) : since old old = [] := since_append old []

lemma since_cons {old log : List Event} (h : old <:+ log) (e : Event) :
    since old (e :: log) = e :: since old log := by
  obtain ⟨new, rfl⟩ := h
  rw [← List.cons_append, since_append, since_append]

lemma since_subset {old log log' : List Event} (h : old <:+ log) (h' : log <:+ log') :
    since old log ⊆ since old log' := by
  obtain ⟨new, rfl⟩ := h
  obtain ⟨more, rfl⟩ := h'
  rw [← List.append_assoc, since_append, since_append]
  exact List.subset_append_right _ _

lemma Drained.since {q q' : Inner} (h : Drained q q') {old : List Event} (ho : old <:+ q.log) :
    old <:+ q'.log ∧ ∃ more, since old q'.log = more ++ since old q.log ∧
      ∀ e ∈ more, e.ofService = false := by
  obtain ⟨more, hm, hs⟩ := h.log
  obtain ⟨new, hn⟩ := ho
  rw [← hn] at hm ⊢
  rw [hm, ← List.append_assoc]
  exact ⟨List.suffix_append _ _, more, by rw [since_append, since_append], hs⟩

/-! ### Budgets -/

/-- The buckets that come before `b` in a list. -/
def ahead (b : Bucket) (l : List Bucket) : List Bucket := l.takeWhile fun i => decide (i ≠ b)

lemma ahead_cons {b i : Bucket} (h : i ≠ b) (l : List Bucket) :
    ahead b (i :: l) = i :: ahead b l := by simp [ahead, h]

lemma ahead_append {b : Bucket} {l : List Bucket} (hb : b ∈ l) (r : List Bucket) :
    ahead b (l ++ r) = ahead b l := by
  induction l with
  | nil => simp at hb
  | cons i l ih =>
    by_cases h : i = b
    · simp [ahead, h]
    · rw [List.cons_append, ahead_cons h, ahead_cons h,
        ih ((List.mem_cons.mp hb).resolve_left fun he => h he.symm)]

lemma ahead_subset {b i : Bucket} {l : List Bucket} (h : i ∈ ahead b l) : i ∈ l :=
  (List.takeWhile_sublist _).subset h

/-- What a bucket may send in the turn it has credit for. -/
def purse (d : ℤ) (L : ℕ) : ℕ := if 0 < d then d.toNat + L else 0

/-- What a bucket may still send before it is the turn of `b`, packets being `L` long at
most. One that is ahead of `b` may run dry and come back as a fresh one. -/
def Inner.budget (b : Bucket) (L : ℕ) (recent : List Event) (q : Inner) (i : Bucket) : ℕ :=
  if i = b then 0
  else if i ∈ q.fresh then purse (q.flows i).deficit L
  else if i ∈ ahead b q.backlogged then
    if 0 < (q.flows i).deficit then purse (q.flows i).deficit L + (QUANTUM + L) else 0
  else if (q.flows i).listed then 0
  else if .ranDry i true ∈ recent then 0
  else QUANTUM + L

lemma Inner.budget_congr {b j : Bucket} {L : ℕ} {recent recent' : List Event} {q q' : Inner}
    (hf : j ∈ q'.fresh ↔ j ∈ q.fresh) (ha : j ∈ ahead b q'.backlogged ↔ j ∈ ahead b q.backlogged)
    (hd : (q'.flows j).deficit = (q.flows j).deficit)
    (hl : (q'.flows j).listed = (q.flows j).listed)
    (hm : .ranDry j true ∈ recent' ↔ .ranDry j true ∈ recent) :
    q'.budget b L recent' j = q.budget b L recent j := by
  unfold Inner.budget
  simp only [hf, ha, hd, hl, hm]

/-- Since the log was `old`, `b` has waited for its turn, and what the others sent and may
still send is at most `total`. -/
structure Waiting (b : Bucket) (L total : ℕ) (old : List Event) (q : Inner) : Prop where
  kept : old <:+ q.log
  backlogged : b ∈ q.backlogged
  listed : Listed q
  short : ∀ p ∈ q.arrived, p.length ≤ L
  once : ∀ i, .ranDry i true ∈ since old q.log → i ∉ q.fresh
  spent : otherBytes b (since old q.log) + ∑ i, q.budget b L (since old q.log) i ≤ total

namespace Waiting

variable {b i : Bucket} {L total : ℕ} {old : List Event} {q q' : Inner} {wasFresh : Bool}

lemma drained (h : Waiting b L total old q) (hq : Drained q q') : Waiting b L total old q' := by
  obtain ⟨hk, more, hm, hs⟩ := hq.since h.kept
  refine ⟨hk, hq.backlogged ▸ h.backlogged, h.listed.drained hq, hq.arrived ▸ h.short,
    fun i hi => ?_, ?_⟩
  · rw [hm, mem_idle hs rfl] at hi
    rw [hq.fresh]
    exact h.once i hi
  have hb : ∀ i, q'.budget b L (since old q'.log) i = q.budget b L (since old q.log) i :=
    fun i => Inner.budget_congr (by rw [hq.fresh]) (by rw [hq.backlogged]) (hq.deficit i)
      (hq.listed i) (by rw [hm]; exact mem_idle hs rfl)
  rw [Finset.sum_congr rfl fun i _ => hb i, hm, otherBytes_idle b hs]
  exact h.spent

lemma selected (h : Waiting b L total old q) (i : Bucket) :
    Waiting b L total old (q.note (.selected i)) := by
  have hs := since_cons h.kept (.selected i)
  refine ⟨h.kept.trans (List.suffix_cons _ _), h.backlogged, ⟨h.listed.once, h.listed.busy⟩,
    h.short, fun j hj => h.once j (by simpa [hs] using hj), ?_⟩
  have hb : ∀ j, (q.note (.selected i)).budget b L (since old (.selected i :: q.log)) j
      = q.budget b L (since old q.log) j := fun j =>
    Inner.budget_congr .rfl .rfl rfl rfl (by rw [hs]; simp)
  rw [Inner.note_log, Finset.sum_congr rfl fun i _ => hb i, hs, otherBytes_cons]
  simpa [Event.otherBytes] using h.spent

/-- The bucket at the front is on no list once it is taken off. -/
lemma front_once (h : Listed q) (hf : q.front = some (i, wasFresh)) :
    (q.flows i).listed = true ∧ i ∉ (q.popList wasFresh).fresh ∧
      i ∉ (q.popList wasFresh).backlogged := by
  have hc := (Listed.front_perm hf).count_eq i
  rw [h.once i, List.count_cons_self, List.count_append] at hc
  split_ifs at hc with hl
  exact ⟨hl, List.count_eq_zero.mp (by omega), List.count_eq_zero.mp (by omega)⟩

/-- The others keep their places when the bucket at the front is taken off its list. -/
lemma front_others (hb : b ∈ q.backlogged) (hf : q.front = some (i, wasFresh)) (hi : i ≠ b)
    {j : Bucket} (hj : j ≠ i) :
    (j ∈ (q.popList wasFresh).fresh ↔ j ∈ q.fresh) ∧ b ∈ (q.popList wasFresh).backlogged ∧
      (j ∈ ahead b (q.popList wasFresh).backlogged ↔ j ∈ ahead b q.backlogged) := by
  rcases Inner.front_cases hf with ⟨rfl, r, hr⟩ | ⟨rfl, hr, r, hr'⟩
  · exact ⟨by simp [Inner.popList, hr, hj], hb, .rfl⟩
  · refine ⟨.rfl, ?_, ?_⟩
    · rw [hr'] at hb
      simpa [Inner.popList, hr'] using (List.mem_cons.mp hb).resolve_left fun he => hi he.symm
    · simp [Inner.popList, hr', ahead_cons hi, hj]

lemma popList_fresh (q : Inner) (wasFresh : Bool) : (q.popList wasFresh).fresh ⊆ q.fresh := by
  cases wasFresh
  · exact List.Subset.refl _
  · exact List.tail_subset _

/-- The bucket at the front is a fresh one, or ahead of `b`. -/
lemma front_place (hf : q.front = some (i, wasFresh)) (hi : i ≠ b) :
    (wasFresh = true ∧ i ∈ q.fresh) ∨
      (wasFresh = false ∧ i ∉ q.fresh ∧ i ∈ ahead b q.backlogged) := by
  rcases Inner.front_cases hf with ⟨rfl, r, hr⟩ | ⟨rfl, hr, r, hr'⟩
  · exact .inl ⟨rfl, by simp [hr]⟩
  · exact .inr ⟨rfl, by simp [hr], by simp [hr', ahead_cons hi]⟩

/-! ### What a turn spends -/

lemma rotate (h : Waiting b L total old q) (hf : q.front = some (i, wasFresh)) (hi : i ≠ b) :
    Waiting b L total old (q.rotate i wasFresh) := by
  obtain ⟨h1, h2⟩ := Inner.rotate_lists q i wasFresh
  obtain ⟨hl, hnf, hnb⟩ := front_once h.listed hf
  have hb' := (front_others h.backlogged hf hi hi.symm).2.1
  have hlog : (q.rotate i wasFresh).log = q.log := by cases wasFresh <;> rfl
  have harr : (q.rotate i wasFresh).arrived = q.arrived := by cases wasFresh <;> rfl
  refine ⟨hlog ▸ h.kept, ?_, h.listed.rotate hf, harr ▸ h.short, fun j hj hm => ?_, ?_⟩
  · rw [h2]
    exact List.mem_append_left _ hb'
  · rw [hlog] at hj
    rw [h1] at hm
    exact h.once j hj (popList_fresh q wasFresh hm)
  · rw [hlog]
    have hsum := sum_spend (f := q.budget b L (since old q.log))
      (g := (q.rotate i wasFresh).budget b L (since old q.log)) i (p := 0) ?_ fun j hj => ?_
    · have := h.spent
      omega
    · -- it is behind `b` now
      have hna : i ∉ ahead b ((q.popList wasFresh).backlogged ++ [i]) := by
        rw [ahead_append hb']
        exact fun hm => hnb (ahead_subset hm)
      unfold Inner.budget
      rw [h1, h2, Inner.rotate_flows]
      simp [hi, hnf, hna, hl]
    · obtain ⟨h3, -, h4⟩ := front_others h.backlogged hf hi hj
      refine Nat.le_of_eq (Inner.budget_congr ?_ ?_ ?_ ?_ .rfl)
      · rw [h1, h3]
      · rw [h2, ahead_append hb', h4]
      · rw [Inner.rotate_flows, Function.update_of_ne hj]
      · rw [Inner.rotate_flows, Function.update_of_ne hj]

lemma unlist (h : Waiting b L total old q) (hf : q.front = some (i, wasFresh)) (hi : i ≠ b)
    (hd : 0 < (q.flows i).deficit) (hdry : (q.flows i).packets = []) :
    Waiting b L total old (q.unlist i wasFresh) := by
  obtain ⟨hl, hnf, hnb⟩ := front_once h.listed hf
  have hb' := (front_others h.backlogged hf hi hi.symm).2.1
  have hlog : (q.unlist i wasFresh).log = .ranDry i wasFresh :: q.log := by
    cases wasFresh <;> rfl
  have harr : (q.unlist i wasFresh).arrived = q.arrived := by cases wasFresh <;> rfl
  have hs := since_cons h.kept (.ranDry i wasFresh)
  refine ⟨?_, hb', h.listed.unlist hf hdry, harr ▸ h.short, fun j hj hm => ?_, ?_⟩
  · rw [hlog]
    exact h.kept.trans (List.suffix_cons _ _)
  · rw [hlog, hs, List.mem_cons] at hj
    rcases hj with hj | hj
    · obtain ⟨rfl, -⟩ := Event.ranDry.inj hj
      exact hnf hm
    · exact h.once j hj (popList_fresh q wasFresh hm)
  · rw [hlog, hs, otherBytes_cons]
    have hsum := sum_spend (f := q.budget b L (since old q.log))
      (g := (q.unlist i wasFresh).budget b L (.ranDry i wasFresh :: since old q.log)) i
      (p := 0) ?_ fun j hj => ?_
    · have := h.spent
      simp only [Event.otherBytes]
      omega
    · have hna : i ∉ ahead b (q.popList wasFresh).backlogged := fun hm => hnb (ahead_subset hm)
      rcases front_place hf hi with ⟨rfl, hm⟩ | ⟨rfl, hm, hm'⟩
      · simp [Inner.budget, Inner.unlist, hi, hnf, hna]
      · have hold : q.budget b L (since old q.log) i
            = purse (q.flows i).deficit L + (QUANTUM + L) := by
          simp [Inner.budget, hi, hm, hm', hd]
        rw [hold]
        simp only [Inner.budget, Inner.unlist, Inner.note_flows, Inner.note_fresh,
          Inner.note_backlogged, Inner.modify_flows, Inner.modify_fresh, Inner.modify_backlogged,
          Function.update_self, if_neg hi, if_neg hnf, if_neg hna, Bool.false_eq_true, if_false]
        split_ifs <;> omega
    · obtain ⟨h3, -, h4⟩ := front_others h.backlogged hf hi hj
      refine Nat.le_of_eq (Inner.budget_congr h3 h4 ?_ ?_ ?_) <;> simp [Inner.unlist, hj]

lemma deliver (h : Waiting b L total old q) (hf : q.front = some (i, wasFresh)) (hi : i ≠ b)
    (hd : 0 < (q.flows i).deficit) {x : Queued} (hx : x.packet.length ≤ L) :
    Waiting b L total old (q.deliver i x) := by
  have hs := since_cons h.kept (.left i x.seq x.packet.length .delivered)
  refine ⟨h.kept.trans (List.suffix_cons _ _), h.backlogged, h.listed.deliver i x, h.short,
    fun j hj => h.once j ?_, ?_⟩
  · change .ranDry j true ∈ since old (_ :: q.log) at hj
    simpa [hs] using hj
  change otherBytes b (since old (_ :: q.log)) + ∑ j, (q.deliver i x).budget b L
    (since old (_ :: q.log)) j ≤ total
  rw [hs, otherBytes_cons]
  have hsum := sum_spend (f := q.budget b L (since old q.log))
    (g := (q.deliver i x).budget b L
      (.left i x.seq x.packet.length .delivered :: since old q.log)) i
    (p := x.packet.length) ?_ fun j hj => ?_
  · have := h.spent
    simp only [Event.otherBytes, if_neg hi]
    omega
  · have hp : purse ((q.flows i).deficit - x.packet.length) L + x.packet.length
        ≤ purse (q.flows i).deficit L := by
      unfold purse
      rw [if_pos hd]
      split_ifs <;> omega
    rcases front_place hf hi with ⟨rfl, hm⟩ | ⟨rfl, hm, hm'⟩
    · simpa [Inner.budget, Inner.deliver, hi, hm] using hp
    · simp only [Inner.budget, Inner.deliver, Inner.note_flows, Inner.note_fresh,
        Inner.note_backlogged, Inner.modify_flows, Inner.modify_fresh, Inner.modify_backlogged,
        Function.update_self, if_neg hi, if_neg hm, if_pos hm', if_pos hd]
      split_ifs <;> omega
  · refine Nat.le_of_eq (Inner.budget_congr .rfl .rfl ?_ ?_ ?_) <;> simp [Inner.deliver, hj]

/-- A packet arrives, and not for a bucket that ran dry while it was fresh. -/
lemma enqueue (h : Waiting b L total old q) {packet : Packet} (now : Instant)
    (hp : packet.length ≤ L)
    (hfair : (q.flows (flowOf packet)).listed = false →
      .ranDry (flowOf packet) true ∉ since old q.log) :
    Waiting b L total old (q.enqueue packet now) := by
  have hlisted := h.listed.enqueue packet now
  have harr := Inner.enqueue_arrived q packet now
  obtain ⟨q2, hdr, hen⟩ := q.enqueue_joins packet now
  have h2 := h.drained hdr
  have hfair2 : (q2.flows (flowOf packet)).listed = false →
      .ranDry (flowOf packet) true ∉ since old q2.log := by
    obtain ⟨-, more, hm, hs⟩ := hdr.since h.kept
    rw [hdr.listed, hm, mem_idle hs rfl]
    exact hfair
  rw [hen] at hlisted harr ⊢
  generalize flowOf packet = i at *
  have hshort : ∀ p ∈ ((q2.push i packet now).join i).arrived, p.length ≤ L := fun p hm => by
    rw [harr] at hm
    rcases List.mem_append.mp hm with hm | hm
    · exact h.short p hm
    · rw [List.mem_singleton.mp hm]; exact hp
  unfold Inner.join at hlisted hshort ⊢
  split_ifs at hlisted hshort ⊢ with hl
  · refine ⟨h2.kept, h2.backlogged, hlisted, hshort, h2.once, ?_⟩
    have hb : ∀ j, (q2.push i packet now).budget b L (since old q2.log) j
        = q2.budget b L (since old q2.log) j := fun j => by
      refine Inner.budget_congr .rfl .rfl ?_ ?_ .rfl <;> by_cases hj : j = i
      all_goals first | (subst hj; simp) | simp [hj]
    rw [Inner.push_log, Finset.sum_congr rfl fun j _ => hb j]
    exact h2.spent
  · -- the bucket was on no list, so it had the budget of a fresh one
    replace hl : (q2.flows i).listed = false := by simpa using hl
    have hc := h2.listed.once i
    rw [if_neg (by rw [hl]; decide), List.count_eq_zero, List.mem_append, not_or] at hc
    have hi : i ≠ b := fun he => hc.2 (he ▸ h2.backlogged)
    refine ⟨h2.kept, h2.backlogged, hlisted, hshort, fun j hj hm => ?_, ?_⟩
    · rcases List.mem_append.mp hm with hm | hm
      · exact h2.once j hj hm
      · rw [List.mem_singleton.mp hm] at hj
        exact hfair2 hl hj
    refine le_trans (Nat.add_le_add_left (Finset.sum_le_sum fun j _ => ?_) _) h2.spent
    by_cases hj : j = i
    · subst hj
      have hna : j ∉ ahead b q2.backlogged := fun hm => hc.2 (ahead_subset hm)
      have hold : q2.budget b L (since old q2.log) j = QUANTUM + L := by
        simp [Inner.budget, hi, hc.1, hna, hl, hfair2 hl]
      have hnew : purse QUANTUM L = QUANTUM + L := by
        rw [purse, if_pos (by decide), Int.toNat_natCast]
      rw [hold]
      simp [Inner.budget, hi, hnew]
    · exact Nat.le_of_eq (Inner.budget_congr (by simp [hj]) .rfl (by simp [hj]) (by simp [hj]) .rfl)

/-! ### A dequeue -/

variable (divSqrt : Duration → ℕ → Duration) {hand : Multiset ℕ}

/-- A turn that the log shows, in a log that does not show the turn of `b`. -/
lemma turn_ne (h : Waiting b L total old q) {log : List Event}
    (hlog : .selected i :: q.log <:+ log) (hsel : .selected b ∉ since old log) : i ≠ b := by
  rintro rfl
  refine hsel (since_subset (h.kept.trans (List.suffix_cons _ _)) hlog ?_)
  rw [since_cons h.kept]
  exact List.mem_cons_self

/-- A turn of another bucket. -/
lemma turn {now : Instant} {r : Inner ⊕ (Inner × Option Queued)} (h : Waiting b L total old q)
    (hs : Straight q hand 0) (ht : Inner.Turn divSqrt now q r)
    (hsel : .selected b ∉ since old (r.elim id Prod.fst).log) :
    Waiting b L total old (r.elim id Prod.fst) := by
  have hnoted : ∀ i, Straight (q.note (.selected i)) hand 0 := fun i => hs.note fun _ _ => rfl
  cases ht with
  | idle _ => exact h
  | @rotate i wasFresh hfront _ =>
    have hlog : .selected i :: q.log <:+ ((q.note (.selected i)).rotate i wasFresh).log := by
      cases wasFresh <;> exact List.suffix_rfl
    exact (h.selected i).rotate hfront (h.turn_ne hlog hsel)
  | @dry i wasFresh after hfront hcredit hcodel =>
    have hdrained := Inner.drained_of_codel divSqrt hcodel
    have hpassed := Inner.passed_of_codel divSqrt (hnoted i) hcodel
    obtain ⟨more, hmore, -⟩ := hdrained.log
    have hlog : .selected i :: q.log <:+ (after.unlist i wasFresh).log := by
      refine ⟨.ranDry i wasFresh :: more, ?_⟩
      cases wasFresh <;> exact congrArg (_ :: ·) hmore.symm
    have hleft : 0 < (after.flows i).deficit := by rwa [hdrained.deficit]
    exact ((h.selected i).drained hdrained).unlist ((Inner.front_congr hdrained).trans hfront)
      (h.turn_ne hlog hsel) hleft (hpassed.dry rfl)
  | @deliver i wasFresh after x hfront hcredit hcodel =>
    have hdrained := Inner.drained_of_codel divSqrt hcodel
    have hpassed := Inner.passed_of_codel divSqrt (hnoted i) hcodel
    obtain ⟨more, hmore, -⟩ := hdrained.log
    have hlog : .selected i :: q.log <:+ (after.deliver i x).log :=
      ⟨.left i x.seq x.packet.length .delivered :: more, congrArg (_ :: ·) hmore.symm⟩
    have hleft : 0 < (after.flows i).deficit := by rwa [hdrained.deficit]
    have hafter := (h.selected i).drained hdrained
    exact hafter.deliver ((Inner.front_congr hdrained).trans hfront) (h.turn_ne hlog hsel) hleft
      ((hpassed.handed x rfl).length_le hafter.short)

/-- A dequeue that does not come to `b` spends from the budgets of the others. -/
lemma dequeue (now : Instant) (h : Waiting b L total old q) (hs : Straight q hand 0)
    (hsel : .selected b ∉ since old (q.dequeue divSqrt now).1.log) :
    Waiting b L total old (q.dequeue divSqrt now).1 := by
  refine Inner.dequeue_rule divSqrt
    (I := fun q₁ => (Waiting b L total old q₁ ∧ Straight q₁ hand 0) ∧ Listed q₁)
    (Q := fun r => Waiting b L total old r.1) (fun q₁ r hq ht hlog => ?_) ⟨⟨h, hs⟩, h.listed⟩
  obtain ⟨⟨hwait, hstraight⟩, hlisted⟩ := hq
  have hserved := Inner.turn_served divSqrt hstraight hlisted ht
  have hkept := hwait.kept.trans (Inner.turn_log divSqrt ht)
  have hnext := hwait.turn divSqrt hstraight ht fun hm => hsel (since_subset hkept hlog hm)
  rcases r with q₂ | r
  · exact ⟨⟨hnext, hserved.1⟩, hserved.2⟩
  · exact hnext

end Waiting

/-! ### Runs -/

/-- A credit is a quantum at most. -/
def Frugal (q : Inner) : Prop := ∀ i, (q.flows i).deficit ≤ QUANTUM

namespace Frugal

variable {q q' : Inner}

lemma drained (h : Frugal q) (hq : Drained q q') : Frugal q' :=
  fun i => (hq.deficit i).le.trans (h i)

lemma enqueue (h : Frugal q) (packet : Packet) (now : Instant) :
    Frugal (q.enqueue packet now) := fun j => by
  obtain ⟨q2, hdrained, hjoins⟩ := q.enqueue_joins packet now
  rw [hjoins, Inner.join_deficit, Inner.push_deficit]
  split_ifs
  · exact le_rfl
  · exact h.drained hdrained j

lemma dequeue (h : Frugal q) (divSqrt : Duration → ℕ → Duration) (now : Instant) :
    Frugal (q.dequeue divSqrt now).1 := by
  refine Inner.dequeue_rule divSqrt (I := Frugal) (Q := fun r => Frugal r.1)
    (fun q₁ r hq ht _ => ?_) h
  have hnext : Frugal (r.elim id Prod.fst) := fun j => by
    have hcredit := hq j
    rcases Inner.turn_deficit divSqrt ht j with heq | ⟨hused, heq⟩ | ⟨-, q', x, rfl, heq⟩
    · rwa [heq]
    · rw [heq]
      omega
    · change (q'.flows j).deficit ≤ QUANTUM
      omega
  cases r <;> exact hnext

lemma run (divSqrt : Duration → ℕ → Duration) (start : Instant) (ops : List (Duration × Op)) :
    Frugal (Sim.run divSqrt (.init start) ops).inner := by
  refine Sim.run_inv divSqrt (I := fun s => Frugal s.inner) (fun s op h => ?_) ?_ ops
  · obtain ⟨wait, packet | _ | age | rtt⟩ := op
    · exact h.enqueue packet _
    · exact h.dequeue divSqrt _
    · simp only [Sim.step_dropOlderThan]
      exact h.drained (Inner.dropOlderThan_drained s.inner _ age)
    · exact h
  · intro i
    simp [Sim.init, Inner.new]

end Frugal

/-- What the others may send ahead of `b` at the outset. -/
lemma Waiting.outset {b : Bucket} {L : ℕ} {q : Inner} (hl : Listed q) (hf : Frugal q)
    (hb : b ∈ q.backlogged) (hs : ∀ p ∈ q.arrived, p.length ≤ L) :
    Waiting b L (2 * FLOWS * (QUANTUM + L)) q.log q := by
  refine ⟨List.suffix_rfl, hb, hl, hs, fun i hi => by simp at hi, ?_⟩
  have hbud : ∀ i, q.budget b L (since q.log q.log) i ≤ 2 * (QUANTUM + L) := fun i => by
    have hp : purse (q.flows i).deficit L ≤ QUANTUM + L := by
      have := hf i
      unfold purse
      split_ifs <;> omega
    unfold Inner.budget
    split_ifs <;> omega
  have hsum := Finset.sum_le_sum fun i (_ : i ∈ Finset.univ) => hbud i
  rw [Finset.sum_const, Finset.card_univ, Fintype.card_fin, smul_eq_mul] at hsum
  rw [since_self, show otherBytes b [] = 0 from rfl, Nat.zero_add]
  rw [since_self] at hsum
  exact hsum.trans (by ring_nf; exact Nat.le_refl _)

/-- An operation that is no packet for a bucket that ran dry while it was fresh and has not
been listed since. -/
def Fair (old : List Event) (s : Sim) (op : Duration × Op) : Prop :=
  ∀ packet, op.2 = .enqueue packet → (s.inner.flows (flowOf packet)).listed = false →
    .ranDry (flowOf packet) true ∉ since old s.inner.log

variable (divSqrt : Duration → ℕ → Duration)

lemma enqueue_log (q : Inner) (packet : Packet) (now : Instant) :
    q.log <:+ (q.enqueue packet now).log := by
  obtain ⟨q2, hdrained, hjoins⟩ := q.enqueue_joins packet now
  obtain ⟨more, hmore, -⟩ := hdrained.log
  exact ⟨more, by rw [hjoins, Inner.join_log, Inner.push_log, hmore]⟩

lemma Sim.step_log (s : Sim) (op : Duration × Op) :
    s.inner.log <:+ (s.step divSqrt op).inner.log := by
  obtain ⟨wait, packet | _ | age | rtt⟩ := op
  · exact enqueue_log _ _ _
  · exact Inner.dequeue_log divSqrt _ _
  · simp only [step_dropOlderThan]
    obtain ⟨more, hm, -⟩ := (Inner.dropOlderThan_drained s.inner (s.clock + wait) age).log
    exact ⟨more, hm.symm⟩
  · exact List.suffix_rfl

lemma Sim.run_log (s : Sim) (ops : List (Duration × Op)) :
    s.inner.log <:+ (s.run divSqrt ops).inner.log := by
  induction ops generalizing s with
  | nil => exact List.suffix_rfl
  | cons op ops ih => exact (s.step_log divSqrt op).trans (ih _)

lemma Waiting.step {b : Bucket} {L total : ℕ} {old : List Event} {s : Sim} {op : Duration × Op}
    (h : Waiting b L total old s.inner) (hb : Books s) (hfair : Fair old s op)
    (hlen : ∀ p ∈ enqueued [op], p.length ≤ L)
    (hsel : .selected b ∉ since old (s.step divSqrt op).inner.log) :
    Waiting b L total old (s.step divSqrt op).inner := by
  obtain ⟨wait, packet | _ | age | rtt⟩ := op
  · exact h.enqueue _ (hlen packet (by simp [enqueued])) (hfair packet rfl)
  · exact h.dequeue divSqrt _ hb.straight hsel
  · simp only [Sim.step_dropOlderThan]
    exact h.drained (Inner.dropOlderThan_drained s.inner _ age)
  · exact ⟨h.kept, h.backlogged, ⟨h.listed.once, h.listed.busy⟩, h.short, h.once, h.spent⟩

lemma Waiting.run {b : Bucket} {L total : ℕ} {old : List Event} {s : Sim}
    (h : Waiting b L total old s.inner) (hb : Books s) (ops : List (Duration × Op))
    (hlen : ∀ p ∈ enqueued ops, p.length ≤ L)
    (hfair : ∀ done op rest, ops = done ++ op :: rest → Fair old (s.run divSqrt done) op)
    (hsel : .selected b ∉ since old (s.run divSqrt ops).inner.log) :
    Waiting b L total old (s.run divSqrt ops).inner := by
  induction ops generalizing s with
  | nil => exact h
  | cons op ops ih =>
    rw [← List.singleton_append, enqueued_append] at hlen
    have hlog := (s.step divSqrt op).run_log divSqrt ops
    have h1 : Waiting b L total old (s.step divSqrt op).inner :=
      h.step divSqrt hb (hfair [] op ops rfl) (fun p hp => hlen p (List.mem_append_left _ hp))
        fun hm => hsel (since_subset (h.kept.trans (s.step_log divSqrt op)) hlog hm)
    exact ih h1 (hb.step divSqrt op) (fun p hp => hlen p (List.mem_append_right _ hp))
      (fun done op' rest he => hfair (op :: done) op' rest (by rw [he]; rfl)) hsel

/-- **A backlogged bucket is not starved**, as long as no bucket that ran dry in its head
start is handed another one: before its turn comes the others send twice the buckets times
a quantum and a packet at most. -/
theorem others_send_at_most (start : Instant) (before after : List (Duration × Op)) (b : Bucket)
    (L : ℕ) (hlen : ∀ p ∈ enqueued (before ++ after), p.length ≤ L) :
    let s := Sim.run divSqrt (.init start) before
    let s' := s.run divSqrt after
    b ∈ s.inner.backlogged →
    (∀ done op rest, after = done ++ op :: rest →
      Fair s.inner.log (s.run divSqrt done) op) →
    .selected b ∉ since s.inner.log s'.inner.log →
    otherBytes b (since s.inner.log s'.inner.log) ≤ 2 * FLOWS * (QUANTUM + L) ∧
      ∀ i, .ranDry i true ∈ since s.inner.log s'.inner.log → i ∉ s'.inner.fresh := by
  intro s s' hb hfair hsel
  rw [enqueued_append] at hlen
  have hbooks := Books.run divSqrt start before
  have harr : s.inner.arrived = enqueued before :=
    (Sim.run_arrived divSqrt (.init start) before).trans (List.nil_append _)
  have hw := Waiting.outset hbooks.listed (Frugal.run divSqrt start before) hb
    fun p hp => hlen p (List.mem_append_left _ (harr ▸ hp))
  have hw' := hw.run divSqrt hbooks after (fun p hp => hlen p (List.mem_append_right _ hp))
    hfair hsel
  exact ⟨le_trans (Nat.le_add_right _ _) hw'.spent, hw'.once⟩

/-! ### A bucket that is starved -/

/-- A packet of twenty bytes, from one of the addresses `10.0.0.n`. -/
def probe (n : UInt8) : Packet :=
  [0x45, 0, 0, 20, 0, 0, 0, 0, 64, 0, 0, 0, 10, 0, 0, n, 10, 0, 0, 1]

/-- Two flows take turns at sending one packet. -/
def bait (n : ℕ) : Packet := if n % 2 = 0 then probe 3 else probe 2

def patient : Bucket := flowOf (probe 1)

lemma bait_cases (n : ℕ) :
    (bait n).length = 20 ∧ pureAck (bait n) = none ∧ flowOf (bait n) ≠ patient ∧
      flowOf (bait (n + 1)) ≠ flowOf (bait n) := by
  have h3 : (probe 3).length = 20 ∧ pureAck (probe 3) = none ∧ flowOf (probe 3) ≠ patient ∧
      flowOf (probe 2) ≠ flowOf (probe 3) := by decide +kernel
  have h2 : (probe 2).length = 20 ∧ pureAck (probe 2) = none ∧ flowOf (probe 2) ≠ patient := by
    decide +kernel
  unfold bait
  rcases Nat.mod_two_eq_zero_or_one n with h | h
  · rw [if_pos h, if_neg (by omega)]
    exact h3
  · rw [if_neg (by omega), if_pos (by omega)]
    exact ⟨h2.1, h2.2.1, h2.2.2, h3.2.2.2.symm⟩

lemma bait_again (n : ℕ) : bait (n + 2) = bait n := by
  unfold bait
  rw [Nat.add_mod_right]

/-- The patient bucket holds a packet and waits for its turn. -/
def Held (q : Inner) : Prop := patient ∈ q.backlogged ∧ (q.flows patient).packets ≠ []

/-- A bucket that is not dropping delivers a head that has not waited for the target. -/
lemma Inner.codel_idle {q q' : Inner} {i : Bucket} {x : Queued} {now : Instant}
    (h : q.popFront i = some (x, q')) (hw : now.since x.since < q.target)
    (hd : (q.flows i).dropping = false) : q.codel divSqrt i now =
      ((q'.recordWait i x now).modify i fun f => { f with aboveSince := none }, some x) := by
  obtain ⟨-, hq⟩ := remove_cases h
  have ht : q'.target = q.target := by rw [hq]; rfl
  have hd' : (q'.flows i).dropping = false := by rw [hq]; simpa using hd
  have hst : (q'.recordWait i x now).standing i (now.since x.since) = false := by
    have : ¬q'.target ≤ now.since x.since := by rw [ht]; exact not_le.mpr hw
    simp [standing, recordWait, note, this]
  have htake : q.take i now = some (x, false,
      (q'.recordWait i x now).modify i fun f => { f with aboveSince := none }) := by
    unfold take judge
    rw [h]
    simp only [hst]
  have hdrop : (((q'.recordWait i x now).modify i fun f =>
      { f with aboveSince := none }).flows i).dropping = false := by
    simpa [recordWait] using hd'
  unfold codel
  rw [htake]
  simp only [hdrop]
  rfl

lemma Inner.dequeue_dry {q : Inner} {i : Bucket} {wasFresh : Bool} (now : Instant)
    (hf : q.front = some (i, wasFresh)) (hd : 0 < (q.flows i).deficit)
    (hp : (q.flows i).packets = []) : q.dequeue divSqrt now =
      ((q.note (.selected i)).unlist i wasFresh).dequeue divSqrt now := by
  have hc := codel_empty divSqrt (q := q.note (.selected i)) hp now
  refine Loop.run_step _ ?_
  simp only [serve, hf, note_flows, if_neg (not_le.mpr hd), hc]

lemma Inner.dequeue_idle {q q' : Inner} {i : Bucket} {wasFresh : Bool} {x : Queued}
    {now : Instant} (hf : q.front = some (i, wasFresh)) (hd : 0 < (q.flows i).deficit)
    (hp : (q.note (.selected i)).popFront i = some (x, q')) (hw : now.since x.since < q.target)
    (hdrop : (q.flows i).dropping = false) : q.dequeue divSqrt now =
      (((q'.recordWait i x now).modify i fun f => { f with aboveSince := none }).deliver i x,
        some x) := by
  have hc := codel_idle divSqrt hp hw hdrop
  refine Loop.run_stop _ ?_
  simp only [serve, hf, note_flows, if_neg (not_le.mpr hd), hc]

/-- The bucket that sent last is still fresh though it has nothing left, the other one that
sends is on no list, and CoDel has nothing against either. -/
structure Starving (old : List Event) (last other : Bucket) (sent : ℕ) (q : Inner) : Prop where
  fresh : q.fresh = [last]
  backlogged : q.backlogged = [patient]
  spent : (q.flows last).packets = [] ∧ 0 < (q.flows last).deficit
  absent : (q.flows other).packets = [] ∧ (q.flows other).listed = false
  calm : (∀ i, (q.flows i).dropping = false) ∧ 0 < q.target
  holds : (q.flows patient).packets ≠ []
  bytes : q.bytes = 20
  kept : old <:+ q.log
  unselected : .selected patient ∉ since old q.log
  sent : otherBytes patient (since old q.log) = sent

namespace Starving

variable {old : List Event} {last other : Bucket} {sent : ℕ} {q : Inner} {packet : Packet}

lemma held (h : Starving old last other sent q) : Held q := ⟨by simp [h.backlogged], h.holds⟩

lemma enqueue_eq (h : Starving old last other sent q) (hlen : packet.length = 20)
    (hack : pureAck packet = none) (hflow : flowOf packet = other) :
    q.enqueue packet 0 = { (q.push other packet 0).modify other
      fun f => { f with listed := true, deficit := QUANTUM } with
      fresh := [last, other] } := by
  have hroom : (Inner.makeRoom packet.length).run q = q := by
    refine Loop.run_stop _ (if_pos ?_)
    rw [hlen, h.bytes]
    decide
  have hj : ((q.push other packet 0).flows other).listed = false := by simpa using h.absent.2
  unfold Inner.enqueue Inner.thinFor Inner.join
  rw [hroom, hack, hflow]
  dsimp only
  rw [hj, if_neg (by decide), Inner.push_fresh, h.fresh]
  rfl

lemma held_mid (h : Starving old last other sent q) (hlen : packet.length = 20)
    (hack : pureAck packet = none) (hflow : flowOf packet = other) (hother : other ≠ patient) :
    Held (q.enqueue packet 0) := by
  rw [h.enqueue_eq hlen hack hflow]
  exact ⟨by simp [h.backlogged], by simpa [hother.symm] using h.holds⟩

/-- The bucket that sent last runs dry and leaves, and the other takes its place. -/
lemma next (h : Starving old last other sent q) (hlen : packet.length = 20)
    (hack : pureAck packet = none) (hflow : flowOf packet = other) (hother : other ≠ patient)
    (hlast : last ≠ patient) (hne : last ≠ other) :
    Starving old other last (sent + 20) ((q.enqueue packet 0).dequeue divSqrt 0).1 := by
  have hen := h.enqueue_eq hlen hack hflow
  set q1 := q.enqueue packet 0 with hq1
  have hf1 : q1.front = some (last, true) := by simp [Inner.front, hen]
  have hd1 : 0 < (q1.flows last).deficit := by simpa [hen, hne] using h.spent.2
  have hp1 : (q1.flows last).packets = [] := by simpa [hen, hne] using h.spent.1
  have hdry := Inner.dequeue_dry divSqrt 0 hf1 hd1 hp1
  set q2 := (q1.note (.selected last)).unlist last true with hq2
  have hf2 : q2.front = some (other, true) := by
    simp [hq2, hen, Inner.front, Inner.unlist, Inner.popList]
  have hd2 : 0 < (q2.flows other).deficit := by
    simp [hq2, hen, Inner.unlist, hne.symm, QUANTUM]
  have hp2 : (q2.flows other).packets = [⟨packet, 0, q.arrived.length⟩] := by
    simp [hq2, hen, Inner.unlist, hne.symm, h.absent.1]
  have hdrop2 : ∀ j, (q2.flows j).dropping = false := fun j => by
    by_cases hj : j = last <;> by_cases hj' : j = other <;>
      simp [hq2, hen, Inner.unlist, hj, hj', hne, hne.symm, h.calm.1]
  have htarget : q2.target = q.target := by rw [hq2, hen]; rfl
  obtain ⟨q3, hpop⟩ : ∃ q3, (q2.note (.selected other)).popFront other
      = some (⟨packet, 0, q.arrived.length⟩, q3) := by
    simp [Inner.popFront, Inner.remove, hp2]
  have hidle := Inner.dequeue_idle divSqrt hf2 hd2 hpop (by rw [htarget]; exact h.calm.2)
    (hdrop2 other)
  obtain ⟨-, hq3⟩ := Inner.remove_cases hpop
  rw [hdry, hidle]
  have hlog : ∃ e, (Inner.deliver ((q3.recordWait other ⟨packet, 0, q.arrived.length⟩ 0).modify
      other fun f => { f with aboveSince := none }) other ⟨packet, 0, q.arrived.length⟩).log
      = [.left other q.arrived.length 20 .delivered, e, .selected other, .ranDry last true,
        .selected last] ++ q.log ∧ e.ofService = false := by
    refine ⟨.took other q.arrived.length 0 (Instant.since 0 0) q3.target q3.interval
      (q3.flows other).bytes, ?_, rfl⟩
    rw [← hlen, hq3, hq2, hen]
    rfl
  obtain ⟨e, hlog, he⟩ := hlog
  obtain ⟨new, hnew⟩ := h.kept
  refine ⟨?_, ?_, ⟨?_, ?_⟩, ⟨?_, ?_⟩, ⟨fun j => ?_, ?_⟩, ?_, ?_, ?_, ?_, ?_⟩
  · simp [hq3, hq2, hen, Inner.deliver, Inner.recordWait, Inner.unlist, Inner.popList]
  · simp [hq3, hq2, hen, Inner.deliver, Inner.recordWait, Inner.unlist, Inner.popList, h.backlogged]
  · simp [hq3, hp2, Inner.deliver, Inner.recordWait]
  · simp [hq3, hq2, hen, Inner.deliver, Inner.recordWait, Inner.unlist, hne.symm, hlen, QUANTUM]
  · simp [hq3, hq2, hen, Inner.deliver, Inner.recordWait, Inner.unlist, hne, h.spent.1]
  · simp [hq3, hq2, hen, Inner.deliver, Inner.recordWait, Inner.unlist, hne]
  · have := hdrop2 j
    by_cases hj : j = other
    · simpa [hq3, Inner.deliver, Inner.recordWait, hj] using hdrop2 other
    · simpa [hq3, Inner.deliver, Inner.recordWait, hj] using this
  · rw [hq3]
    exact htarget ▸ h.calm.2
  · simpa [hq3, hq2, hen, Inner.deliver, Inner.recordWait, Inner.unlist, hother.symm, hlast.symm]
      using h.holds
  · rw [hq3, hq2, hen]
    change q.bytes + packet.length - packet.length = 20
    rw [Nat.add_sub_cancel, h.bytes]
  · rw [hlog]
    exact h.kept.trans (List.suffix_append _ _)
  · have hu := h.unselected
    rw [hlog, ← hnew, ← List.append_assoc, since_append]
    rw [← hnew, since_append] at hu
    have hee : e ≠ .selected patient := fun hc => by rw [hc] at he; cases he
    simp [hu, hother.symm, hlast.symm, hee.symm]
  · have hu := h.sent
    rw [hlog, ← hnew, ← List.append_assoc, since_append]
    rw [← hnew, since_append] at hu
    have hidle : ∀ e' ∈ [e], e'.ofService = false := by simpa using he
    have hee : ∀ l, otherBytes patient (e :: l) = otherBytes patient l := fun l =>
      otherBytes_idle patient hidle l
    simp only [List.cons_append, List.nil_append, otherBytes_cons, hee] at hu ⊢
    simp only [Event.otherBytes, if_neg hother, hu]
    omega

/-- The operations of `n` rounds. -/
def rounds : ℕ → List (Duration × Op)
  | 0 => []
  | n + 1 => rounds n ++ [(0, .enqueue (bait n)), (0, .dequeue)]

lemma run {s : Sim} (hc : s.clock = 0)
    (h : Starving old (flowOf (bait 1)) (flowOf (bait 0)) sent s.inner) (n : ℕ) :
    Starving old (flowOf (bait (n + 1))) (flowOf (bait n)) (sent + 20 * n)
        (s.run divSqrt (rounds n)).inner ∧ (s.run divSqrt (rounds n)).clock = 0 ∧
      ∀ done, done <+: rounds n → Held (s.run divSqrt done).inner := by
  induction n with
  | zero => exact ⟨h, hc, fun done hd => by rw [List.prefix_nil.mp hd]; exact h.held⟩
  | succ n ih =>
    obtain ⟨h1, hc1, hh⟩ := ih
    obtain ⟨hlen, hack, hother, hne⟩ := bait_cases n
    obtain ⟨-, -, hlast, -⟩ := bait_cases (n + 1)
    have h2 := h1.next divSqrt hlen hack rfl hother hlast hne
    have hmid : (s.run divSqrt (rounds n ++ [(0, .enqueue (bait n))])).inner
        = (s.run divSqrt (rounds n)).inner.enqueue (bait n) 0 := by
      simp only [Sim.run_append, Sim.run_cons, Sim.run_nil, Sim.step_enqueue, hc1]
    have hend : (s.run divSqrt (rounds (n + 1))).inner
        = (((s.run divSqrt (rounds n)).inner.enqueue (bait n) 0).dequeue divSqrt 0).1 := by
      simp only [rounds, Sim.run_append, Sim.run_cons, Sim.run_nil, Sim.step_enqueue,
        Sim.step_dequeue, hc1]
    refine ⟨?_, ?_, fun done hd => ?_⟩
    · rw [hend, bait_again, Nat.mul_succ, ← Nat.add_assoc]
      exact h2
    · simp only [rounds, Sim.run_append, Sim.run_cons, Sim.run_nil, Sim.step_enqueue,
        Sim.step_dequeue, hc1]
    · rw [rounds, List.append_cons, List.prefix_concat_iff, List.prefix_concat_iff] at hd
      rcases hd with rfl | rfl | hd
      · have := h2.held
        rwa [← hend, rounds, List.append_cons] at this
      · rw [hmid]
        exact h1.held_mid hlen hack rfl hother
      · exact hh done hd

lemma rounds_calls (n : ℕ) :
    (∀ op ∈ rounds n, op.1 = 0 ∧ (op.2 = .dequeue ∨ ∃ p, op.2 = .enqueue p)) ∧
      ∀ p ∈ enqueued (rounds n), p.length = 20 := by
  induction n with
  | zero => exact ⟨nofun, nofun⟩
  | succ n ih =>
    rw [rounds, enqueued_append]
    refine ⟨fun op hop => ?_, fun p hp => ?_⟩
    · rcases List.mem_append.mp hop with hop | hop
      · exact ih.1 op hop
      · simp only [List.mem_cons, List.not_mem_nil, or_false] at hop
        rcases hop with rfl | rfl <;> simp
    · rcases List.mem_append.mp hp with hp | hp
      · exact ih.2 p hp
      · obtain rfl : p = bait n := by simpa [enqueued] using hp
        exact (bait_cases n).1

end Starving

/-- The interval over the root of the count, in whole nanoseconds. -/
def divRoot (interval : Duration) (n : ℕ) : Duration := interval / Nat.sqrt n

/-- Three packets of one flow, the first over a quantum long, and two of them sent. -/
def settle : List (Duration × Op) :=
  [(0, .enqueue (probe 1 ++ List.replicate 1280 0)), (0, .enqueue (probe 1)),
    (0, .enqueue (probe 1)), (0, .dequeue), (0, .dequeue)]

def opening : List (Duration × Op) := [(0, .enqueue (probe 2)), (0, .dequeue)]

/-- Two flows that take turns keep a backlogged one waiting for as long as they like. -/
lemma patient_waits (n : ℕ) :
    let s := Sim.run divRoot (.init 0) settle
    let after := opening ++ Starving.rounds n
    let s' := s.run divRoot after
    (∀ p ∈ enqueued (settle ++ after), p.length ≤ 1300) ∧
    (∀ op ∈ after, op.1 = 0 ∧ (op.2 = .dequeue ∨ ∃ p, op.2 = .enqueue p)) ∧
    (∀ done, done <+: after → Held (s.run divRoot done).inner) ∧
    .selected patient ∉ since s.inner.log s'.inner.log ∧
    otherBytes patient (since s.inner.log s'.inner.log) = 20 + 20 * n := by
  intro s after s'
  have hstart : Starving s.inner.log (flowOf (bait 1)) (flowOf (bait 0)) 20
      (s.run divRoot opening).inner := by
    refine ⟨?_, ?_, ?_, ?_, ?_, ?_, ?_, ?_, ?_, ?_⟩ <;> decide +kernel
  have hclock : (s.run divRoot opening).clock = 0 := by decide +kernel
  obtain ⟨hend, -, hheld⟩ := hstart.run divRoot hclock n
  obtain ⟨hcalls, hlens⟩ := Starving.rounds_calls n
  have hs' : s' = (s.run divRoot opening).run divRoot (Starving.rounds n) :=
    Sim.run_append divRoot s _ _
  refine ⟨fun p hp => ?_, fun op hop => ?_, fun done hd => ?_, ?_, ?_⟩
  · rw [enqueued_append, enqueued_append] at hp
    simp only [List.mem_append] at hp
    rcases hp with hp | hp | hp
    · revert p
      decide +kernel
    · revert p
      decide +kernel
    · rw [hlens p hp]
      decide
  · rcases List.mem_append.mp hop with hop | hop
    · simp only [opening, List.mem_cons, List.not_mem_nil, or_false] at hop
      rcases hop with rfl | rfl <;> simp
    · exact hcalls op hop
  · have hfirst : Held s.inner ∧ Held (s.run divRoot [(0, .enqueue (probe 2))]).inner := by
      unfold Held
      decide +kernel
    have hcons : ∀ l, opening ++ l = (0, .enqueue (probe 2)) :: (0, .dequeue) :: l := fun _ => rfl
    simp only [after, hcons, List.prefix_cons_iff] at hd
    rcases hd with rfl | ⟨done, rfl, rfl | ⟨done, rfl, hd⟩⟩
    · rw [Sim.run_nil]
      exact hfirst.1
    · exact hfirst.2
    · have hm := hheld done hd
      rw [← Sim.run_append, hcons] at hm
      exact hm
  · rw [hs']; exact hend.unselected
  · rw [hs', hend.sent]

theorem patient_starves :
    let s := Sim.run divRoot (.init 0) settle
    let after := opening ++ Starving.rounds 20000
    let s' := s.run divRoot after
    (∀ p ∈ enqueued (settle ++ after), p.length ≤ 1300) ∧
    (∀ op ∈ after, op.1 = 0 ∧ (op.2 = .dequeue ∨ ∃ p, op.2 = .enqueue p)) ∧
    (∀ done, done <+: after → Held (s.run divRoot done).inner) ∧
    .selected patient ∉ since s.inner.log s'.inner.log ∧
    2 * FLOWS * (QUANTUM + 1300) < otherBytes patient (since s.inner.log s'.inner.log) := by
  obtain ⟨h1, h2, h3, h4, h5⟩ := patient_waits 20000
  exact ⟨h1, h2, h3, h4, by rw [h5]; decide⟩

/-- The bound at work, on a run in which one other flow sends a packet. -/
theorem others_send_at_most_opening :
    otherBytes patient (since (Sim.run divRoot (.init 0) settle).inner.log
      ((Sim.run divRoot (.init 0) settle).run divRoot opening).inner.log)
        ≤ 2 * FLOWS * (QUANTUM + 1300) := by
  refine (others_send_at_most divRoot 0 settle opening patient 1300 ?_ ?_ ?_ ?_).1
  · decide +kernel
  · decide +kernel
  · intro done op rest hd packet hp hl
    have hpre : done <+: opening := ⟨op :: rest, hd.symm⟩
    simp only [opening, List.prefix_cons_iff, List.prefix_nil] at hpre
    rcases hpre with rfl | ⟨done, rfl, rfl | ⟨done, rfl, rfl⟩⟩
    · rw [Sim.run_nil, since_self]
      exact List.not_mem_nil
    · obtain ⟨rfl, -⟩ : op = (0, .dequeue) ∧ rest = [] := by simpa [opening, eq_comm] using hd
      cases hp
    · simp [opening] at hd
  · decide +kernel

end Masqr.Queue
