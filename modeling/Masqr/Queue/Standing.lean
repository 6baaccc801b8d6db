import Masqr.Queue.Codel

/-!
CoDel signals congestion only to a queue that has been standing.

The moment a bucket is above target since is backed by the log: a take that set it, and after
that no take but of packets that had waited and had a quantum behind them. The state CoDel keeps
of its episodes plays no part in this.
-/

namespace Masqr.Queue

open Masqr.Lib

/-- A packet this event takes from the bucket had waited the target, and left more than a quantum
behind it. -/
def Event.Stood (i : Bucket) : Event → Prop
  | .took j _ _ waited target _ behind => j = i → target ≤ waited ∧ QUANTUM < behind
  | _ => True

/-- This event takes a packet from the bucket. -/
def Event.takes (i : Bucket) : Event → Bool
  | .took j _ _ _ _ _ _ => decide (j = i)
  | _ => false

/-- By this event the packet carries a congestion signal away. -/
inductive Event.Signals (i : Bucket) (seq : ℕ) : Event → Prop
  | marked : Signals i seq (.marked i seq)
  | dropped {len} : Signals i seq (.left i seq len .overTarget)

/-- Whether CoDel has nothing to do with an event. -/
def Event.idle : Event → Bool
  | .took .. => false
  | .marked .. => false
  | .left _ _ _ .overTarget => false
  | .swept => false
  | _ => true

lemma Event.idle_cases {e : Event} (h : e.idle = true) :
    (∀ i, e.Stood i) ∧ (∀ i, e.takes i = false) ∧ e ≠ .swept ∧ ∀ i seq, ¬ e.Signals i seq := by
  cases e with
  | selected i => exact ⟨fun _ => trivial, fun _ => rfl, by simp, fun _ _ hs => by cases hs⟩
  | ranDry i fresh => exact ⟨fun _ => trivial, fun _ => rfl, by simp, fun _ _ hs => by cases hs⟩
  | left i seq len fate =>
    refine ⟨fun _ => trivial, fun _ => rfl, by simp, fun _ _ hs => ?_⟩
    cases hs
    cases h
  | took _ _ _ _ _ _ _ => cases h
  | marked _ _ => cases h
  | swept => cases h

/-- The log of a bucket standing since an interval before `due`: a packet taken then, and none
taken since that had not waited or had no quantum behind it, and no sweep. -/
def StandingSince (i : Bucket) (due : Instant) (log : List Event) : Prop :=
  ∃ recent first opened waited target interval behind old,
    log = recent ++ .took i first opened waited target interval behind :: old ∧
    due = opened + interval ∧
    (∀ e ∈ recent ++ [.took i first opened waited target interval behind], e.Stood i) ∧
    .swept ∉ recent

lemma StandingSince.cons {i : Bucket} {due : Instant} {log : List Event} {e : Event}
    (h : StandingSince i due log) (hstood : e.Stood i) (hswept : e ≠ .swept) :
    StandingSince i due (e :: log) := by
  obtain ⟨recent, first, opened, waited, target, interval, left, old, rfl, rfl, hall, hno⟩ := h
  refine ⟨e :: recent, first, opened, waited, target, interval, left, old, rfl, rfl, ?_, ?_⟩
  · rw [List.cons_append]
    exact List.forall_mem_cons.2 ⟨hstood, hall⟩
  · rw [List.mem_cons, not_or]
    exact ⟨hswept.symm, hno⟩

/-- The packet taken last from the bucket, at the moment `now`, was one of a queue that had been
standing for an interval. -/
def Overdue (i : Bucket) (seq : ℕ) (now : Instant) (log : List Event) : Prop :=
  (∃ due ≤ now, StandingSince i due log) ∧
    ∃ waited target interval behind,
      log.find? (Event.takes i) = some (.took i seq now waited target interval behind)

/-- Each congestion signal since the log was `old` was carried by a packet taken at the moment
`now` of a queue that had been standing for an interval. -/
def Warranted (now : Instant) (old log : List Event) : Prop :=
  ∀ later e earlier i seq, log = later ++ e :: earlier → old <:+ earlier → e.Signals i seq →
    Overdue i seq now earlier

namespace Warranted

variable {now : Instant} {old log : List Event} {e : Event}

lemma refl (now : Instant) (log : List Event) : Warranted now log log := by
  intro later e earlier i seq hlog hold
  have hlength := congrArg List.length hlog
  have hle := hold.length_le
  rw [List.length_append, List.length_cons] at hlength
  omega

lemma cons (h : Warranted now old log) (he : ∀ i seq, e.Signals i seq → Overdue i seq now log) :
    Warranted now old (e :: log) := by
  intro later e' earlier i seq hlog hold hsignals
  obtain _ | ⟨e'', later⟩ := later
  · cases hlog
    exact he i seq hsignals
  · cases hlog
    exact h later e' earlier i seq rfl hold hsignals

end Warranted

/-! ### The evidence -/

/-- What a bucket keeps of its standing is borne out by the log. -/
def Evident (q : Inner) : Prop :=
  ∀ i due, (q.flows i).aboveSince = some due → StandingSince i due q.log

/-- `q'` is `q` as far as CoDel's judgement goes. -/
structure Still (q q' : Inner) : Prop where
  aboveSince : ∀ i, (q'.flows i).aboveSince = (q.flows i).aboveSince
  log : ∃ more, q'.log = more ++ q.log ∧ ∀ e ∈ more, e.idle = true

namespace Still

variable {q q' : Inner} {i : Bucket} {x : Queued}

lemma refl (q : Inner) : Still q q := ⟨fun _ => rfl, [], rfl, List.forall_mem_nil _⟩

lemma trans {q1 q2 : Inner} (h : Still q q1) (h' : Still q1 q2) : Still q q2 := by
  obtain ⟨more, hlog, hidle⟩ := h.log
  obtain ⟨more', hlog', hidle'⟩ := h'.log
  refine ⟨fun i => (h'.aboveSince i).trans (h.aboveSince i), more' ++ more, ?_, ?_⟩
  · rw [hlog', hlog, List.append_assoc]
  · exact List.forall_mem_append.2 ⟨hidle', hidle⟩

lemma note (h : Still q q') {e : Event} (he : e.idle = true) : Still q (q'.note e) := by
  obtain ⟨more, hlog, hidle⟩ := h.log
  refine ⟨h.aboveSince, e :: more, ?_, List.forall_mem_cons.2 ⟨he, hidle⟩⟩
  rw [Inner.note_log, hlog, List.cons_append]

lemma modify (q : Inner) (i : Bucket) {f : Flow → Flow}
    (hf : ∀ fl, (f fl).aboveSince = fl.aboveSince) : Still q (q.modify i f) := by
  refine ⟨fun j => ?_, [], rfl, List.forall_mem_nil _⟩
  by_cases hj : j = i
  · subst hj
    simpa using hf (q.flows j)
  · simp [hj]

lemma paced (h : Paced q q') : Still q q' :=
  ⟨h.aboveSince, [], h.retuned.log, List.forall_mem_nil _⟩

lemma remove {k : ℕ} (h : q.remove i k = some (x, q')) : Still q q' := by
  obtain ⟨-, rfl⟩ := Inner.remove_cases h
  have hflow : Still q (q.modify i fun f =>
      { f with packets := f.packets.eraseIdx k, bytes := f.bytes - x.packet.length }) :=
    .modify q i fun _ => rfl
  exact ⟨hflow.aboveSince, hflow.log⟩

lemma dropFattest (q : Inner) : Still q q.dropFattest.2 := by
  unfold Inner.dropFattest
  split
  · exact .refl q
  · split
    · exact .refl q
    · next x q1 hpop =>
      have h := Still.remove hpop
      exact (⟨h.aboveSince, h.log⟩ : Still q { q1 with overLimit := q1.overLimit + 1 }).note rfl

lemma makeRoom (len : ℕ) (q : Inner) : Still q ((Inner.makeRoom len).run q) := by
  refine (Inner.makeRoom len).run_inv (Still q) (Still q) (fun s r hs hb => ?_)
    (fun s s' hs hb => ?_) (.refl q)
  · cases Inner.makeRoom_turn hb with
    | fits | nothing => exact hs
    | stuck => exact ⟨hs.aboveSince, hs.log⟩
  · cases Inner.makeRoom_turn hb with
    | dropped => exact hs.trans (dropFattest s)

lemma thinOne (i : Bucket) (q : Inner) (k : ℕ) : Still q (Inner.thinOne i q k) := by
  unfold Inner.thinOne
  split
  · exact .refl q
  · next x q1 hremove =>
    have h := Still.remove hremove
    exact (⟨h.aboveSince, h.log⟩ : Still q { q1 with thinned := q1.thinned + 1 }).note rfl

lemma thinFor (q : Inner) (i : Bucket) (packet : Packet) : Still q (q.thinFor i packet) := by
  exact Inner.thinFor_rule (fun s k hs => hs.trans (thinOne i s k)) packet (.refl q)

lemma enqueue (q : Inner) (packet : Packet) (now : Instant) :
    Still q (q.enqueue packet now) := by
  have hroom := (makeRoom packet.length q).trans (thinFor _ (flowOf packet) packet)
  unfold Inner.enqueue
  dsimp only
  generalize ((Inner.makeRoom packet.length).run q).thinFor (flowOf packet) packet = q2 at hroom ⊢
  generalize flowOf packet = i
  have hpush : Still q2 (q2.push i packet now) :=
    let h : Still q2 (q2.modify i fun f => { f with
        packets := f.packets ++ [⟨packet, now, q2.arrived.length⟩]
        bytes := f.bytes + packet.length }) := .modify q2 i fun _ => rfl
    ⟨h.aboveSince, h.log⟩
  refine (hroom.trans hpush).trans ?_
  unfold Inner.join
  split_ifs
  · exact .refl _
  · have h : Still (q2.push i packet now) ((q2.push i packet now).modify i fun f =>
        { f with listed := true, deficit := QUANTUM }) := .modify _ i fun _ => rfl
    exact ⟨h.aboveSince, h.log⟩

lemma sweepFlow (now : Instant) (age : Duration) (i : Bucket) (s : Inner × ℕ) :
    Still s.1 ((Inner.sweepFlow now age i).run s).1 := by
  refine (Inner.sweepFlow now age i).run_inv (fun t => Still s.1 t.1) (fun t => Still s.1 t.1)
    (fun t r ht hb => ?_) (fun t t' ht hb => ?_) (.refl s.1)
  · cases Inner.sweepFlow_turn hb with
    | stop => exact ht
  · cases Inner.sweepFlow_turn hb with
    | gone hpop => exact (ht.trans (Still.remove hpop)).note rfl

lemma rotate (q : Inner) (i : Bucket) (wasFresh : Bool) : Still q (q.rotate i wasFresh) := by
  have h : Still q (q.modify i fun f => { f with deficit := f.deficit + QUANTUM }) :=
    .modify q i fun _ => rfl
  cases wasFresh <;> exact ⟨h.aboveSince, h.log⟩

lemma unlist (q : Inner) (i : Bucket) (wasFresh : Bool) : Still q (q.unlist i wasFresh) := by
  have hpop : Still q (q.popList wasFresh) := by
    cases wasFresh <;> exact ⟨fun _ => rfl, [], rfl, List.forall_mem_nil _⟩
  have hflow : Still (q.popList wasFresh)
      ((q.popList wasFresh).modify i fun f => { f with listed := false }) :=
    .modify _ i fun _ => rfl
  exact (hpop.trans hflow).note rfl

lemma deliver (q : Inner) (i : Bucket) (x : Queued) : Still q (q.deliver i x) := by
  have hflow : Still q (q.modify i fun f => { f with deficit := f.deficit - x.packet.length }) :=
    .modify q i fun _ => rfl
  exact hflow.note rfl

end Still

/-- The evidence is there, and no signal since the log was `old` was without. -/
structure Sound (now : Instant) (old : List Event) (q : Inner) : Prop where
  evident : Evident q
  kept : old <:+ q.log
  warranted : Warranted now old q.log

namespace Sound

variable {q q' : Inner} {i : Bucket} {now : Instant} {x : Queued} {o : Bool}
variable {old : List Event}

/-- An event that is no take of a packet that had not waited, no sweep, and no signal without
evidence. -/
lemma note (h : Sound now old q) {e : Event} (hstood : ∀ i, e.Stood i) (hswept : e ≠ .swept)
    (hsignals : ∀ i seq, e.Signals i seq → Overdue i seq now q.log) :
    Sound now old (q.note e) where
  evident j due hdue := (h.evident j due hdue).cons (hstood j) hswept
  kept := h.kept.trans (List.suffix_cons e q.log)
  warranted := h.warranted.cons hsignals

lemma still (h : Sound now old q) (hq : Still q q') : Sound now old q' := by
  obtain ⟨more, hlog, hidle⟩ := hq.log
  have hgrown : ∀ more : List Event, (∀ e ∈ more, e.idle = true) →
      Sound now old { q with log := more ++ q.log } := by
    intro more hidle
    induction more with
    | nil => exact ⟨h.evident, h.kept, h.warranted⟩
    | cons e more ih =>
      obtain ⟨he, hidle⟩ := List.forall_mem_cons.1 hidle
      obtain ⟨hstood, -, hswept, hsignals⟩ := Event.idle_cases he
      exact (ih hidle).note hstood hswept fun i seq hs => absurd hs (hsignals i seq)
  have hsound := hgrown more hidle
  refine ⟨fun j due hdue => ?_, hlog ▸ hsound.kept, hlog ▸ hsound.warranted⟩
  rw [hlog]
  exact hsound.evident j due (hq.aboveSince j ▸ hdue)

/-- Taking a packet leaves evidence of the queue standing, and of the packet being overdue if it
is. -/
lemma take (h : Sound now old q) (hk : q.take i now = some (x, o, q')) :
    Sound now old q' ∧ (o = true → Overdue i x.seq now q'.log) := by
  have ht := Inner.take_taken hk
  have hevident : Evident q' := by
    intro j due hdue
    rw [ht.log]
    by_cases hj : j = i
    · subst hj
      obtain ⟨hstood, hsince⟩ := ht.above due hdue
      rcases hsince with hbefore | hopened
      · exact (h.evident j due hbefore).cons (fun _ => hstood) (by simp)
      · refine ⟨[], x.seq, now, now.since x.since, q.target, q.interval, (q'.flows j).bytes, q.log,
          rfl, hopened, ?_, List.not_mem_nil⟩
        rw [List.nil_append]
        exact List.forall_mem_singleton.2 fun _ => hstood
    · rw [ht.others j hj] at hdue
      exact (h.evident j due hdue).cons (fun hi => absurd hi.symm hj) (by simp)
  refine ⟨⟨hevident, ?_, ?_⟩, fun ho => ⟨?_, ?_⟩⟩
  · rw [ht.log]
    exact h.kept.trans (List.suffix_cons _ q.log)
  · rw [ht.log]
    exact h.warranted.cons fun _ _ hs => by cases hs
  · obtain ⟨due, hnow, hdue⟩ := ht.overdue ho
    exact ⟨due, hnow, hevident i due hdue⟩
  · rw [ht.log, List.find?_cons_of_pos (by simp [Event.takes])]
    exact ⟨_, _, _, _, rfl⟩

lemma paced (h : Sound now old q) (hq : Paced q q') : Sound now old q' := h.still (.paced hq)

lemma mark (h : Sound now old q) {y : Queued} (hm : q.mark i x = some (y, q'))
    (hover : Overdue i x.seq now q.log) : Sound now old q' := by
  obtain ⟨-, -, -, rfl⟩ := Inner.mark_cases hm
  have hmarked : Sound now old { q with marked := q.marked + 1 } :=
    ⟨h.evident, h.kept, h.warranted⟩
  refine hmarked.note (fun _ => trivial) (by simp) fun _ _ hsignal => ?_
  cases hsignal
  exact hover

lemma dropOverTarget (h : Sound now old q) (hover : Overdue i x.seq now q.log) :
    Sound now old (q.dropOverTarget i x) := by
  have hcounted : Sound now old { q with overTarget := q.overTarget + 1 } :=
    ⟨h.evident, h.kept, h.warranted⟩
  refine hcounted.note (fun _ => trivial) (by simp) fun _ _ hsignal => ?_
  cases hsignal
  exact hover

/-- The signals of one call of CoDel are carried by packets that are overdue. -/
lemma sends {r : Option Queued} (h : Sound now old q) (hs : Inner.Sends i now q x o q' r)
    (hover : o = true → Overdue i x.seq now q.log) : Sound now old q' := by
  induction hs with
  | pass hpaced => exact h.paced hpaced
  | @mark start x before y after final hbefore hmark hafter =>
    have hsignal : Overdue i x.seq now before.log := hbefore.retuned.log ▸ hover rfl
    exact ((h.paced hbefore).mark hmark hsignal).paced hafter
  | @drop start x before y overdue after more final r hbefore htake hafter _ ih =>
    have hsignal : Overdue i x.seq now before.log := hbefore.retuned.log ▸ hover rfl
    obtain ⟨hsound, hover'⟩ := ((h.paced hbefore).dropOverTarget hsignal).take htake
    exact ih (hsound.paced hafter) fun ho => hafter.retuned.log ▸ hover' ho
  | @dry start x before final hbefore _ hafter =>
    have hsignal : Overdue i x.seq now before.log := hbefore.retuned.log ▸ hover rfl
    exact ((h.paced hbefore).dropOverTarget hsignal).paced hafter

variable (divSqrt : Duration → ℕ → Duration)

lemma codel (h : Sound now old q) (i : Bucket) : Sound now old (q.codel divSqrt i now).1 := by
  cases htake : q.take i now with
  | none => rwa [Inner.codel_empty divSqrt (Inner.take_none htake)]
  | some taken =>
    obtain ⟨x, o, q'⟩ := taken
    obtain ⟨hsound, hover⟩ := h.take htake
    exact hsound.sends (Inner.codel_sends divSqrt htake) hover

/-- **A turn of the scheduler** gives no signal without evidence. -/
lemma turn {r : Inner ⊕ (Inner × Option Queued)} (h : Sound now old q)
    (ht : Inner.Turn divSqrt now q r) : Sound now old (r.elim id Prod.fst) := by
  have hnoted : ∀ i, Sound now old (q.note (.selected i)) := fun i =>
    h.still ((Still.refl q).note rfl)
  cases ht with
  | idle _ => exact h
  | @rotate i wasFresh _ _ => exact (hnoted i).still (.rotate _ i wasFresh)
  | @dry i wasFresh after _ _ hcodel =>
    have hsound := (hnoted i).codel divSqrt i
    rw [hcodel] at hsound
    exact hsound.still (.unlist _ i wasFresh)
  | @deliver i wasFresh after x _ _ hcodel =>
    have hsound := (hnoted i).codel divSqrt i
    rw [hcodel] at hsound
    exact hsound.still (.deliver _ i x)

lemma dequeue (h : Sound now old q) : Sound now old (q.dequeue divSqrt now).1 := by
  refine Inner.dequeue_rule divSqrt (I := Sound now old) (Q := fun r => Sound now old r.1)
    (fun q₁ r hq ht _ => ?_) h
  have hsound := hq.turn divSqrt ht
  cases r <;> exact hsound

end Sound

/-! ### Runs -/

/-- A sweep forgets since when each bucket has been standing. -/
lemma dropOlderThan_forgets (q : Inner) (now : Instant) (age : Duration) (i : Bucket) :
    ((q.dropOlderThan now age).1.flows i).aboveSince = none := by
  have hone : ∀ (s : Inner × ℕ) (j : Bucket), (s.1.flows i).aboveSince = none ∨ i = j →
      ((Inner.sweepOne now age s j).1.flows i).aboveSince = none := by
    intro s j hs
    have hswept := Still.sweepFlow now age j s
    unfold Inner.sweepOne
    by_cases hj : i = j
    · subst hj
      simp
    · simpa [hj] using (hswept.aboveSince i).trans (hs.resolve_right hj)
  have hfold : ∀ (is : List Bucket) (s : Inner × ℕ), ((s.1.flows i).aboveSince = none ∨ i ∈ is) →
      ((is.foldl (Inner.sweepOne now age) s).1.flows i).aboveSince = none := by
    intro is
    induction is with
    | nil => exact fun s hs => hs.resolve_right List.not_mem_nil
    | cons j is ih =>
      intro s hs
      rw [List.mem_cons, ← or_assoc] at hs
      exact ih _ (hs.imp_left (hone s j))
  have hall := hfold (List.finRange FLOWS) (q.note .swept, 0) (.inr (List.mem_finRange i))
  unfold Inner.dropOlderThan
  generalize (List.finRange FLOWS).foldl (Inner.sweepOne now age) (q.note .swept, 0) = s at hall ⊢
  exact hall

namespace Evident

variable {q q' : Inner}

lemma sound (h : Evident q) (now : Instant) : Sound now q.log q :=
  ⟨h, List.suffix_rfl, .refl now q.log⟩

lemma still (h : Evident q) (hq : Still q q') : Evident q' := ((h.sound 0).still hq).evident

variable (divSqrt : Duration → ℕ → Duration)

lemma step {s : Sim} (h : Evident s.inner) (op : Duration × Op) :
    Evident (s.step divSqrt op).inner := by
  obtain ⟨wait, packet | _ | age | rtt⟩ := op
  · rw [Sim.step_enqueue]
    exact h.still (.enqueue s.inner packet _)
  · have hsound := (h.sound (s.clock + wait)).dequeue divSqrt
    exact hsound.evident
  · intro i due hdue
    have hnone := dropOlderThan_forgets s.inner (s.clock + wait) age i
    simp only [Sim.step_dropOlderThan] at hdue
    rw [hnone] at hdue
    cases hdue
  · exact h

lemma run (start : Instant) (ops : List (Duration × Op)) :
    Evident (Sim.run divSqrt (.init start) ops).inner :=
  Sim.run_inv divSqrt (I := fun s => Evident s.inner) (fun _ op h => h.step divSqrt op)
    (fun i due hdue => by simp [Sim.init, Inner.new] at hdue) ops

end Evident

/-- **CoDel never punishes a burst.** In every run, each packet a dequeue marks or drops as over
target was the last taken from its bucket, and from some take at least an interval before it, as
the interval then was, every packet taken from the bucket had waited for the target and left more
than a quantum behind it, with no sweep in between. -/
theorem signals_warranted (divSqrt : Duration → ℕ → Duration) (start : Instant)
    (ops : List (Duration × Op)) (wait : Duration) :
    let s := Sim.run divSqrt (.init start) ops
    let s' := s.step divSqrt (wait, .dequeue)
    Warranted s'.clock s.inner.log s'.inner.log := by
  intro s s'
  exact (((Evident.run divSqrt start ops).sound (s.clock + wait)).dequeue divSqrt).warranted

/-- A queue that stands for an interval is signalled: of four packets the second is dropped. -/
example : (Sim.run (fun interval _ => interval) (.init 0)
    (List.replicate 4 (0, .enqueue (0x45 :: List.replicate 1299 0)) ++
      [(.millis 10, .dequeue), (.millis 200, .dequeue)])).inner.overTarget = 1 := by decide +kernel

end Masqr.Queue
