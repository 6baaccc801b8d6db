import Masqr.Headers
import Masqr.Queue.Standing

/-!
CoDel tells the senders that are willing, and drops the packets of the others.

A mark is given where a drop is due, so a dequeue gives one at the most and hands out the packet
that carries it. What is followed through CoDel is that the packets taken are as they were enqueued,
that those dropped so far could not be marked, and that no mark has been given yet.
-/

namespace Masqr.Queue

open Masqr.Lib

/-- Which packet an event marks. -/
def Event.markOf : Event → Option ℕ
  | .marked _ seq => some seq
  | _ => none

/-- Which packets the log says were marked, the latest first. -/
def marks (log : List Event) : List ℕ := log.filterMap Event.markOf

lemma marks_append (more log : List Event) : marks (more ++ log) = marks more ++ marks log :=
  List.filterMap_append

/-- The log has grown by events that neither mark a packet nor drop one as over target. -/
def Silent (log log' : List Event) : Prop := ∃ more, log' = more ++ log ∧ marks more = [] ∧
  ∀ i seq len, .left i seq len .overTarget ∉ more

namespace Silent

variable {log log' log'' : List Event}

lemma trans (h : Silent log log') (h' : Silent log' log'') : Silent log log'' := by
  obtain ⟨more, rfl, hmarks, hmore⟩ := h
  obtain ⟨more', rfl, hmarks', hmore'⟩ := h'
  refine ⟨more' ++ more, (List.append_assoc _ _ _).symm, ?_, fun i seq len hmem => ?_⟩
  · rw [marks_append, hmarks', hmarks, List.append_nil]
  · exact (List.mem_append.1 hmem).elim (hmore' i seq len) (hmore i seq len)

lemma still {q q' : Inner} (h : Still q q') : Silent q.log q'.log := by
  obtain ⟨more, hlog, hidle⟩ := h.log
  refine ⟨more, hlog, List.filterMap_eq_nil_iff.2 fun e he => ?_, fun i seq len hmem => ?_⟩
  · have hquiet := hidle e he
    cases e with
    | marked i seq => cases hquiet
    | _ => rfl
  · have hquiet := hidle _ hmem
    cases hquiet

lemma cons {e : Event} (hmark : e.markOf = none)
    (he : ∀ i seq len, e ≠ .left i seq len .overTarget) : Silent log (e :: log) := by
  refine ⟨[e], rfl, ?_, fun i seq len hmem => ?_⟩
  · rw [marks, List.filterMap_cons_none hmark]
    rfl
  · exact he i seq len (List.mem_singleton.1 hmem).symm

lemma marks_eq (h : Silent log log') : marks log' = marks log := by
  obtain ⟨more, rfl, hmarks, -⟩ := h
  rw [marks_append, hmarks, List.nil_append]

/-- A sweep is silent. -/
lemma dropOlderThan (q : Inner) (now : Instant) (age : Duration) :
    Silent q.log (q.dropOlderThan now age).1.log := by
  have hfold : Silent (q.note .swept).log ((List.finRange FLOWS).foldl (Inner.sweepOne now age)
      (q.note .swept, 0)).1.log := by
    refine List.foldlRecOn _ (Inner.sweepOne now age)
      (motive := fun s : Inner × ℕ => Silent (q.note .swept).log s.1.log) ?_ fun s hs i _ => ?_
    · exact .still (.refl _)
    · have hflow := Silent.still (Still.sweepFlow now age i s)
      unfold Inner.sweepOne
      generalize (Inner.sweepFlow now age i).run s = t at hflow ⊢
      exact hs.trans hflow
  have hall : Silent q.log _ := (cons (e := .swept) rfl (by simp)).trans hfold
  unfold Inner.dropOlderThan
  generalize (List.finRange FLOWS).foldl (Inner.sweepOne now age) (q.note .swept, 0) = s at hall ⊢
  exact hall

end Silent

/-- The congestion bits of a packet. -/
def ecn (packet : Packet) : UInt8 :=
  (Headers.ecnBits packet).elim 0 fun mask => byte packet 1 &&& mask

/-- The header of the packet, as long as it says it is, is inside the packet. -/
def Complete (packet : Packet) : Prop :=
  (version packet = some 4 ∧ Headers.HasHeader packet) ∨
    (version packet = some 6 ∧ 40 ≤ packet.length)

/-- The packets are the same but for congestion bits, and the checksum of IPv4. -/
def OnlyEcn (packet packet' : Packet) : Prop :=
  ∃ mask, Headers.ecnBits packet = some mask ∧
    byte packet' 1 &&& ~~~mask = byte packet 1 &&& ~~~mask ∧ Headers.OnlyAt packet packet' 1

lemma ecn_v4 {p : Packet} (h : version p = some 4) : ecn p = byte p 1 &&& 0b11 := by
  rw [ecn, Headers.ecnBits, if_pos h]
  rfl

lemma ecn_v6 {p : Packet} (h : version p = some 6) : ecn p = byte p 1 &&& 0b00110000 := by
  have hv4 : version p ≠ some 4 := by
    rw [h]
    decide
  rw [ecn, Headers.ecnBits, if_neg hv4, if_pos h]
  rfl

/-- A packet whose sender did not ask to be told takes no mark. -/
lemma markCongestion_zero {p : Packet} (h : ecn p = 0) : markCongestion p = none := by
  unfold markCongestion
  split_ifs with hv4 hzero _ _ hv6 hzero
  · rfl
  · exact absurd (ecn_v4 hv4.1 ▸ h) hzero
  · rfl
  · exact absurd (ecn_v4 hv4.1 ▸ h) hzero
  · rfl
  · exact absurd (ecn_v6 hv6.1 ▸ h) hzero
  · rfl

/-- A packet that asked to be told and has its whole header takes a mark. -/
lemma markCongestion_complete {p : Packet} (hecn : ecn p ≠ 0) (hcomplete : Complete p) :
    markCongestion p ≠ none := by
  unfold markCongestion
  obtain ⟨hversion, h20, hinside⟩ | ⟨hversion, hlong⟩ := hcomplete
  · rw [ecn_v4 hversion] at hecn
    rw [if_pos ⟨hversion, by omega⟩, if_neg hecn, if_neg (c := _ ∨ _) (by omega)]
    split_ifs <;> exact Option.some_ne_none _
  · have hv4 : ¬(version p = some 4 ∧ 20 ≤ p.length) := by
      rw [hversion]
      rintro ⟨h, -⟩
      cases h
    rw [ecn_v6 hversion] at hecn
    rw [if_neg hv4, if_pos ⟨hversion, hlong⟩, if_neg hecn]
    exact Option.some_ne_none _

/-- A packet that takes a mark is the same but for the mark. -/
lemma markCongestion_onlyEcn {p p' : Packet} (h : markCongestion p = some p') : OnlyEcn p p' := by
  have hmarking : Headers.marking p = (true, p') := by
    unfold Headers.marking
    rw [h]
    rfl
  obtain ⟨-, hkept, -⟩ := Headers.marked_kept (hmarking ▸ Headers.marked_marking p)
  obtain ⟨mask, hmask, -, hrest, honly⟩ := hkept rfl
  exact ⟨mask, hmask, hrest, honly⟩

/-- Each packet dropped as over target could not be marked. -/
def Spared (q : Inner) : Prop := ∀ i seq len, .left i seq len .overTarget ∈ q.log →
  ∃ p, q.arrived[seq]? = some p ∧ markCongestion p = none

lemma Spared.silent {q q' : Inner} (h : Spared q) (hlog : Silent q.log q'.log)
    (harrived : q.arrived <+: q'.arrived) : Spared q' := by
  obtain ⟨more, hlog, -, hmore⟩ := hlog
  intro i seq len hleft
  rw [hlog, List.mem_append] at hleft
  obtain ⟨p, hp, hnone⟩ := h i seq len (hleft.resolve_left (hmore i seq len))
  refine ⟨p, ?_, hnone⟩
  obtain ⟨later, harrived⟩ := harrived
  rw [← harrived, List.getElem?_append_left (List.getElem?_eq_some_iff.1 hp).1]
  exact hp

/-! ### One dequeue -/

/-- The packets waiting are as they were enqueued, those dropped could not be marked, and none was
marked since the log was `old`. -/
structure Unmarked (old : List Event) (q : Inner) : Prop where
  genuine : ∀ i, ∀ x ∈ (q.flows i).packets, q.arrived[x.seq]? = some x.packet
  spared : Spared q
  marks : marks q.log = marks old

/-- What is answered is as it was enqueued and nothing was marked, or it is the one packet marked
since the log was `old`. -/
structure Told (old : List Event) (r : Inner × Option Queued) : Prop where
  genuine : ∀ i, ∀ x ∈ (r.1.flows i).packets, r.1.arrived[x.seq]? = some x.packet
  spared : Spared r.1
  answer : (marks r.1.log = marks old ∧ ∀ x ∈ r.2, r.1.arrived[x.seq]? = some x.packet) ∨
    ∃ x p, r.2 = some x ∧ marks r.1.log = x.seq :: marks old ∧ r.1.arrived[x.seq]? = some p ∧
      markCongestion p = some x.packet

namespace Unmarked

variable {q q' : Inner} {i : Bucket} {now : Instant} {x : Queued} {o : Bool} {old : List Event}

lemma still (h : Unmarked old q) (hstill : Still q q')
    (hpackets : ∀ i, (q'.flows i).packets = (q.flows i).packets)
    (harrived : q'.arrived = q.arrived) : Unmarked old q' := by
  refine ⟨fun i x hx => ?_, ?_, (Silent.still hstill).marks_eq.trans h.marks⟩
  · rw [harrived]
    exact h.genuine i x (hpackets i ▸ hx)
  · exact h.spared.silent (.still hstill) (harrived ▸ List.prefix_rfl)

lemma paced (h : Unmarked old q) (hq : Paced q q') : Unmarked old q' :=
  h.still (.paced hq) (fun i => (hq.retuned.flow i).1) hq.retuned.arrived

/-- The packet taken is as it was enqueued. -/
lemma take (h : Unmarked old q) (hk : q.take i now = some (x, o, q')) :
    Unmarked old q' ∧ q'.arrived[x.seq]? = some x.packet := by
  have ht := Inner.take_taken hk
  have hdrained := Inner.take_drained hk
  refine ⟨⟨fun j y hy => ?_, ?_, ?_⟩, ?_⟩
  · rw [hdrained.arrived]
    exact h.genuine j y ((hdrained.packets j).subset hy)
  · exact h.spared.silent (ht.log ▸ .cons rfl (by simp)) (hdrained.arrived ▸ List.prefix_rfl)
  · rw [ht.log]
    exact h.marks
  · rw [hdrained.arrived]
    refine h.genuine i x ?_
    rw [ht.packets]
    exact List.mem_cons_self

/-- A packet that cannot be marked is dropped. -/
lemma dropOverTarget (h : Unmarked old q) (hx : q.arrived[x.seq]? = some x.packet)
    (hmark : q.mark i x = none) : Unmarked old (q.dropOverTarget i x) := by
  refine ⟨h.genuine, fun j seq len hleft => ?_, h.marks⟩
  rcases List.mem_cons.1 hleft with heq | hleft
  · cases heq
    exact ⟨x.packet, hx, Option.map_eq_none_iff.1 hmark⟩
  · exact h.spared j seq len hleft

lemma told_some (h : Unmarked old q) (hx : q.arrived[x.seq]? = some x.packet) :
    Told old (q, some x) := by
  refine ⟨h.genuine, h.spared, .inl ⟨h.marks, fun y hy => ?_⟩⟩
  cases hy
  exact hx

lemma told_none (h : Unmarked old q) : Told old (q, none) :=
  ⟨h.genuine, h.spared, .inl ⟨h.marks, fun _ hx => absurd hx (Option.not_mem_none _)⟩⟩

lemma told_mark (h : Unmarked old q) (hx : q.arrived[x.seq]? = some x.packet) {y : Queued}
    (hm : q.mark i x = some (y, q')) : Told old (q', some y) := by
  obtain ⟨hp, hseq, -, rfl⟩ := Inner.mark_cases hm
  refine ⟨h.genuine, ?_, .inr ⟨y, x.packet, rfl, ?_, hseq ▸ hx, hp⟩⟩
  · intro j seq len hleft
    exact h.spared j seq len (List.mem_of_ne_of_mem (by simp) hleft)
  · rw [hseq, ← h.marks]
    rfl

end Unmarked

namespace Told

variable {q q' : Inner} {r : Option Queued} {old : List Event}

lemma still (h : Told old (q, r)) (hstill : Still q q')
    (hpackets : ∀ i, (q'.flows i).packets = (q.flows i).packets)
    (harrived : q'.arrived = q.arrived) : Told old (q', r) := by
  refine ⟨fun i x hx => ?_, ?_, ?_⟩
  · rw [harrived]
    exact h.genuine i x (hpackets i ▸ hx)
  · exact h.spared.silent (.still hstill) (harrived ▸ List.prefix_rfl)
  · rw [(Silent.still hstill).marks_eq, harrived]
    exact h.answer

lemma paced (h : Told old (q, r)) (hq : Paced q q') : Told old (q', r) :=
  h.still (.paced hq) (fun i => (hq.retuned.flow i).1) hq.retuned.arrived

lemma unmarked (h : Told old (q, none)) : Unmarked old q := by
  refine ⟨h.genuine, h.spared, ?_⟩
  obtain ⟨hmarks, -⟩ | ⟨x, p, hx, -⟩ := h.answer
  · exact hmarks
  · cases hx

end Told

namespace Inner

variable {q q' : Inner} {i : Bucket} {now : Instant} {x : Queued} {o : Bool} {old : List Event}
variable (divSqrt : Duration → ℕ → Duration)

lemma dropLoop_told (h : Unmarked old q) (hx : q.arrived[x.seq]? = some x.packet) :
    Told old ((dropLoop divSqrt i now).run (q, x)) := by
  refine (dropLoop divSqrt i now).run_inv
    (fun t => Unmarked old t.1 ∧ t.1.arrived[t.2.seq]? = some t.2.packet) (Told old)
    (fun t r ht hb => ?_) (fun t t' ht hb => ?_) ⟨h, hx⟩
  · have hcount := ht.1.paced (countUp_paced t.1 i)
    cases dropLoop_turn divSqrt hb with
    | idle => exact ht.1.told_some ht.2
    | marked _ hmark => exact (hcount.told_mark ht.2 hmark).paced (schedule_paced divSqrt _ i _)
    | dry _ hmark =>
      exact ((hcount.dropOverTarget ht.2 hmark).paced (setDropping_paced _ i false)).told_none
  · have hcount := ht.1.paced (countUp_paced t.1 i)
    cases dropLoop_turn divSqrt hb with
    | @again y after _ hmark htake =>
      obtain ⟨hafter, hy⟩ := (hcount.dropOverTarget ht.2 hmark).take htake
      exact ⟨hafter.paced (schedule_paced divSqrt after i _), hy⟩
    | @eased y after _ hmark htake =>
      obtain ⟨hafter, hy⟩ := (hcount.dropOverTarget ht.2 hmark).take htake
      exact ⟨hafter.paced (setDropping_paced after i false), hy⟩

/-- **CoDel marks the packet it answers with or none**, and drops none that can be marked. -/
theorem codel_told (h : Unmarked old q) (i : Bucket) (now : Instant) :
    Told old (q.codel divSqrt i now) := by
  unfold codel
  split
  · exact h.told_none
  · next x o q1 htake =>
    obtain ⟨h1, hx⟩ := h.take htake
    split_ifs
    · exact dropLoop_told divSqrt h1 hx
    · exact (h1.told_some hx).paced (setDropping_paced q1 i false)
    · split
      · next hmark => exact (h1.told_mark hx hmark).paced (startEpisode_paced divSqrt _ i now)
      · next hmark =>
        have hdropped := h1.dropOverTarget hx hmark
        split
        · exact hdropped.told_none.paced (startEpisode_paced divSqrt _ i now)
        · next htake' =>
          obtain ⟨h2, hy⟩ := hdropped.take htake'
          exact (h2.told_some hy).paced (startEpisode_paced divSqrt _ i now)
    · exact h1.told_some hx

/-- **A turn of the scheduler** marks the packet it ends with or none. -/
lemma turn_told {r : Inner ⊕ (Inner × Option Queued)} (h : Unmarked old q)
    (ht : Turn divSqrt now q r) : Sum.elim (Unmarked old) (Told old) r := by
  have hnoted : ∀ i, Unmarked old (q.note (.selected i)) := fun i =>
    ⟨h.genuine, h.spared.silent (.cons rfl (by simp)) List.prefix_rfl, h.marks⟩
  have htold : ∀ i {after y}, (q.note (.selected i)).codel divSqrt i now = (after, y) →
      Told old (after, y) := fun i _ _ hcodel => hcodel ▸ codel_told divSqrt (hnoted i) i now
  cases ht with
  | idle _ => exact h.told_none
  | @rotate i wasFresh _ _ =>
    refine (hnoted i).still (.rotate _ i wasFresh) (fun j => rotate_packets _ i j wasFresh) ?_
    cases wasFresh <;> rfl
  | @dry i wasFresh after _ _ hcodel =>
    refine (htold i hcodel).unmarked.still (.unlist _ i wasFresh)
      (fun j => unlist_packets _ i j wasFresh) ?_
    cases wasFresh <;> rfl
  | @deliver i wasFresh after x _ _ hcodel =>
    exact (htold i hcodel).still (.deliver _ i x) (fun j => deliver_packets _ i j x) rfl

lemma dequeue_told (h : Unmarked old q) (now : Instant) : Told old (q.dequeue divSqrt now) :=
  dequeue_rule divSqrt (fun _ _ hq ht _ => turn_told divSqrt hq ht) h

end Inner

/-! ### Runs -/

/-- Those dropped as over target could not be marked, and those handed out are as they were enqueued
or were marked. -/
structure Honest (s : Sim) : Prop where
  spared : Spared s.inner
  handed : ∀ x ∈ s.out, ∃ p, s.inner.arrived[x.seq]? = some p ∧
    (x.packet = p ∨ (x.seq ∈ marks s.inner.log ∧ markCongestion p = some x.packet))

namespace Honest

variable (divSqrt : Duration → ℕ → Duration)

/-- Packets come and go without a word from CoDel. -/
lemma silent {s s' : Sim} (h : Honest s) (hlog : Silent s.inner.log s'.inner.log)
    (hout : s'.out = s.out) (harrived : s.inner.arrived <+: s'.inner.arrived) : Honest s' := by
  refine ⟨h.spared.silent hlog harrived, fun x hx => ?_⟩
  obtain ⟨p, hp, hsame⟩ := h.handed x (hout ▸ hx)
  refine ⟨p, ?_, hlog.marks_eq.symm ▸ hsame⟩
  obtain ⟨later, harrived⟩ := harrived
  rw [← harrived, List.getElem?_append_left (List.getElem?_eq_some_iff.1 hp).1]
  exact hp

lemma step {s : Sim} (h : Honest s) (hb : Books s) (op : Duration × Op) :
    Honest (s.step divSqrt op) := by
  obtain ⟨wait, packet | _ | age | rtt⟩ := op
  · refine h.silent (.still (.enqueue s.inner packet _)) rfl ?_
    exact ⟨[packet], (Inner.enqueue_arrived s.inner packet _).symm⟩
  · have hwaiting : Unmarked s.inner.log s.inner := ⟨hb.straight.genuine, h.spared, rfl⟩
    have htold := Inner.dequeue_told divSqrt hwaiting (s.clock + wait)
    have harrived := Inner.dequeue_arrived divSqrt s.inner (s.clock + wait)
    refine ⟨htold.spared, fun x hx => ?_⟩
    rw [Sim.step_dequeue] at hx ⊢
    dsimp only at hx ⊢
    rw [harrived]
    rcases List.mem_append.1 hx with hx | hx
    · obtain ⟨p, hp, hsame⟩ := h.handed x hx
      refine ⟨p, hp, hsame.imp_right fun hmarked => ⟨?_, hmarked.2⟩⟩
      obtain ⟨hmarks, -⟩ | ⟨y, -, -, hmarks, -⟩ := htold.answer
      · exact hmarks ▸ hmarked.1
      · exact hmarks ▸ List.mem_cons_of_mem _ hmarked.1
    · have hx := Option.mem_toList.1 hx
      obtain ⟨-, hsame⟩ | ⟨y, p, hy, hmarks, hp, hmark⟩ := htold.answer
      · exact ⟨x.packet, harrived ▸ hsame x hx, .inl rfl⟩
      · obtain rfl : y = x := Option.some.inj (hy.symm.trans hx)
        exact ⟨p, harrived ▸ hp, .inr ⟨hmarks ▸ List.mem_cons_self, hmark⟩⟩
  · have hlog := Silent.dropOlderThan s.inner (s.clock + wait) age
    have harrived := (Inner.dropOlderThan_drained s.inner (s.clock + wait) age).arrived
    rw [Sim.step_dropOlderThan]
    generalize s.inner.dropOlderThan (s.clock + wait) age = r at hlog harrived
    exact h.silent hlog rfl (harrived ▸ List.prefix_rfl)
  · exact ⟨h.spared, h.handed⟩

lemma run (start : Instant) (ops : List (Duration × Op)) :
    Honest (Sim.run divSqrt (.init start) ops) := by
  have hboth := Sim.run_inv divSqrt (I := fun s => Books s ∧ Honest s)
    (fun s op h => ⟨h.1.step divSqrt op, h.2.step divSqrt h.1 op⟩)
    (s := .init start) ⟨.init start, ?_, ?_⟩ ops
  · exact hboth.2
  · intro i seq len hleft
    cases hleft
  · intro x hx
    cases hx

end Honest

lemma gone_overTarget {log : List Event} {seq : ℕ} (h : seq ∈ gone .overTarget log) :
    ∃ i len, .left i seq len .overTarget ∈ log := by
  induction log with
  | nil => exact absurd h (Multiset.notMem_zero seq)
  | cons e log ih =>
    rw [gone_cons, Multiset.mem_add] at h
    rcases h with he | h
    · cases e with
      | left i seq' len fate =>
        simp only [Event.gone] at he
        split_ifs at he with hfate
        · rw [Multiset.mem_singleton.1 he, hfate]
          exact ⟨i, len, List.mem_cons_self⟩
        · exact absurd he (Multiset.notMem_zero seq)
      | _ => exact absurd he (Multiset.notMem_zero seq)
    · obtain ⟨i, len, hleft⟩ := ih h
      exact ⟨i, len, List.mem_cons_of_mem e hleft⟩

/-- **CoDel tells willing senders instead of dropping them.** In every run a packet handed out is as
it was enqueued, but for the congestion bits and the IPv4 checksum of one that was marked, and is
not altered where those bits were zero; what waits is as it was enqueued. Those counted as over
target had the bits at zero or no complete header. And a dequeue marks no packet, or marks one and
answers with that one. -/
theorem willing_are_told (divSqrt : Duration → ℕ → Duration) (start : Instant)
    (ops : List (Duration × Op)) :
    let s := Sim.run divSqrt (.init start) ops
    (∀ x ∈ s.out, ∃ p, (enqueued ops)[x.seq]? = some p ∧ (ecn p = 0 → x.packet = p) ∧
      (x.packet = p ∨ (x.seq ∈ marks s.inner.log ∧ OnlyEcn p x.packet))) ∧
    (∀ i, ∀ x ∈ (s.inner.flows i).packets, (enqueued ops)[x.seq]? = some x.packet) ∧
    ((gone .overTarget s.inner.log).card = s.inner.overTarget ∧
      ∀ seq ∈ gone .overTarget s.inner.log, ∃ p, (enqueued ops)[seq]? = some p ∧
        ¬(ecn p ≠ 0 ∧ Complete p)) ∧
    ∀ wait, ∃ recent,
      (s.inner.dequeue divSqrt (s.clock + wait)).1.log = recent ++ s.inner.log ∧
      (marks recent = [] ∨
        ∃ x, (s.inner.dequeue divSqrt (s.clock + wait)).2 = some x ∧ marks recent = [x.seq]) := by
  intro s
  have hbooks := Books.run divSqrt start ops
  have hhonest := Honest.run divSqrt start ops
  have harrived : s.inner.arrived = enqueued ops :=
    (Sim.run_arrived divSqrt (.init start) ops).trans (List.nil_append _)
  refine ⟨fun x hx => ?_, harrived ▸ hbooks.straight.genuine,
    ⟨hbooks.straight.counted .overTarget (by decide), fun seq hseq => ?_⟩, fun wait => ?_⟩
  · obtain ⟨p, hp, hsame⟩ := hhonest.handed x hx
    refine ⟨p, harrived ▸ hp, fun hzero => ?_, hsame.imp_right fun hmarked =>
      ⟨hmarked.1, markCongestion_onlyEcn hmarked.2⟩⟩
    refine hsame.resolve_right fun hmarked => ?_
    rw [markCongestion_zero hzero] at hmarked
    cases hmarked.2
  · obtain ⟨i, len, hleft⟩ := gone_overTarget hseq
    obtain ⟨p, hp, hnone⟩ := hhonest.spared i seq len hleft
    exact ⟨p, harrived ▸ hp, fun h => markCongestion_complete h.1 h.2 hnone⟩
  · have hwaiting : Unmarked s.inner.log s.inner :=
      ⟨hbooks.straight.genuine, hhonest.spared, rfl⟩
    have htold := Inner.dequeue_told divSqrt hwaiting (s.clock + wait)
    obtain ⟨recent, hlog⟩ := Inner.dequeue_log divSqrt s.inner (s.clock + wait)
    have hmarks := htold.answer
    rw [← hlog, marks_append] at hmarks
    refine ⟨recent, hlog.symm, hmarks.imp (fun h => ?_) fun h => ?_⟩
    · exact List.append_left_eq_self.1 h.1
    · obtain ⟨x, p, hx, hone, -⟩ := h
      exact ⟨x, hx, List.append_cancel_right (hone : _ = [x.seq] ++ marks s.inner.log)⟩

end Masqr.Queue
