import Mathlib
import Masqr.Engine.Reconnect

/-!
The numbers the engine publishes: which attempt is being made, and how long until the next.

Both come from one counter, which a tunnel that comes up sets back, and which a tunnel that is lost
moves on like an attempt that opened none.
-/

namespace Masqr.Engine

open Masqr.Lib Masqr.Transport

/-! ### What is counted -/

/-- A tunnel came up, an attempt ended without one, or a phase was published that none is up. -/
inductive Mark | up | notOpened | lost
  deriving DecidableEq

/-- What a step counts as. An HTTP/3 attempt that HTTP/2 is still to follow has not ended, and a try
of HTTP/3 beside a tunnel that is up is no attempt. -/
def mark (s : State) : Event → Option Mark
  | .turn => if s.handed.isSome then some .up else none
  | .h3Opened _ _ _ | .h2Opened _ _ _ _ => some .up
  | .h3Failed _ _ => match s.place with
    | .connecting (.h3 true _) _ => none
    | _ => some .notOpened
  | .h2Failed _ _ | .notOpened => some .notOpened
  | .lost => some .lost
  | _ => none

/-- What the steps of a run count as, in order. -/
def marks (cfg : Config) : State → List Event → List Mark
  | _, [] => []
  | s, e :: es => (mark s e).toList ++ match step cfg s e with
    | none => []
    | some s' => marks cfg s' es

/-- What was counted since a tunnel last came up, the latest first. -/
def sinceUp (ms : List Mark) : List Mark := ms.reverse.takeWhile fun m => decide (m ≠ .up)

/-- The attempts that ended without a tunnel since one last came up. -/
def unopened (ms : List Mark) : ℕ := (sinceUp ms).count .notOpened

/-- The phases published without a tunnel since one last came up. -/
def lostPhases (ms : List Mark) : ℕ := (sinceUp ms).count .lost

/-- The wait after so many, the last repeating. -/
def backoff (n : ℕ) : Duration := BACKOFF.getD (min n (BACKOFF.length - 1)) 0

/-- The phase a step publishes. -/
def published (cfg : Config) (s : State) (e : Event) : Option Phase :=
  match e with
  | .turn | .h3Opened _ _ _ | .h2Opened _ _ _ _ | .lost =>
    (step cfg s e).map fun s' => s'.core.phase
  | _ => none

/-- The numbers of the phase a step publishes are those of the failures in a row. -/
structure Right (cfg : Config) (ms : List Mark) (s : State) (e : Event) : Prop where
  attempt : ∀ n, published cfg s e = some (.connecting n) → n = 1 + unopened ms
  retryIn : ∀ reason retryIn blocked, published cfg s e = some (.lost reason retryIn blocked) →
    retryIn = backoff (lostPhases ms)

/-- An attempt begins: the loop is at its top, and no tunnel was handed over to it. -/
def BeginsAttempt (s : State) (e : Event) : Prop :=
  e = .turn ∧ s.place = .top ∧ s.handed = none

variable {cfg : Config} {s s' : State} {e : Event} {ms : List Mark}

@[simp] lemma sinceUp_up (ms : List Mark) : sinceUp (ms ++ [.up]) = [] := by
  simp [sinceUp]

lemma sinceUp_snoc (ms : List Mark) {m : Mark} (h : m ≠ .up) :
    sinceUp (ms ++ [m]) = m :: sinceUp ms := by
  rw [sinceUp, List.reverse_append, List.reverse_singleton, List.singleton_append,
    List.takeWhile_cons_of_pos (by simpa using h)]
  rfl

@[simp] lemma unopened_up (ms : List Mark) : unopened (ms ++ [.up]) = 0 := by
  simp [unopened]

@[simp] lemma lostPhases_up (ms : List Mark) : lostPhases (ms ++ [.up]) = 0 := by
  simp [lostPhases]

@[simp] lemma unopened_notOpened (ms : List Mark) :
    unopened (ms ++ [.notOpened]) = unopened ms + 1 := by
  rw [unopened, sinceUp_snoc ms (by decide), List.count_cons_self]
  rfl

@[simp] lemma lostPhases_notOpened (ms : List Mark) :
    lostPhases (ms ++ [.notOpened]) = lostPhases ms := by
  rw [lostPhases, sinceUp_snoc ms (by decide), List.count_cons_of_ne (by decide)]
  rfl

@[simp] lemma unopened_lost (ms : List Mark) : unopened (ms ++ [.lost]) = unopened ms := by
  rw [unopened, sinceUp_snoc ms (by decide), List.count_cons_of_ne (by decide)]
  rfl

@[simp] lemma lostPhases_lost (ms : List Mark) : lostPhases (ms ++ [.lost]) = lostPhases ms + 1 := by
  rw [lostPhases, sinceUp_snoc ms (by decide), List.count_cons_self]
  rfl

/-- One more step of a run, and what it counts as. -/
lemma marks_snoc {es : List Event} {t : State} (h : run (step cfg) s es = some t) (e : Event) :
    marks cfg s (es ++ [e]) = marks cfg s es ++ (mark t e).toList := by
  induction es generalizing s with
  | nil =>
    obtain rfl := Option.some.inj h
    cases hstep : step cfg s e <;> simp [marks, hstep]
  | cons e' es ih =>
    obtain ⟨s', hstep, hrun⟩ := (run_cons (step cfg)).1 h
    rw [List.cons_append, marks, marks, hstep]
    simp only [ih hrun, List.append_assoc]

/-! ### What a step counts as -/

/-- Where the loop is between attempts or in one, about to publish that there is no tunnel, or with a
tunnel that came up. -/
inductive Standing | resting | failed | carrying
  deriving DecidableEq

def standing (s : State) : Standing :=
  match s.place with
  | .top => if s.handed.isSome then .carrying else .resting
  | .connecting _ _ | .waiting _ _ _ => .resting
  | .failed _ _ => .failed
  | .opened _ | .pumping _ | .ended _ _ => .carrying

/-- What a step does to the counter, by what it counts as. -/
inductive Counts (s s' : State) : Option Mark → Prop
  | same (hs : standing s' = standing s) (hf : s'.failures = s.failures) : Counts s s' none
  | up (hs : standing s' = .carrying) (hf : s'.failures = 0) : Counts s s' (some .up)
  | notOpened (hb : standing s = .resting) (hs : standing s' = .failed)
    (hf : s'.failures = s.failures) : Counts s s' (some .notOpened)
  | ended (hb : standing s = .carrying) (hs : standing s' = .failed)
    (hf : s'.failures = s.failures) : Counts s s' none
  | lost (hb : standing s = .failed) (hs : standing s' = .resting)
    (hf : s'.failures = s.failures + 1) : Counts s s' (some .lost)

/-- A tunnel is handed over at the top of the loop only. -/
def HandedAtTop (s : State) : Prop := s.handed.isSome = true → s.place = .top

lemma act_counts (hh : HandedAtTop s) (h : act cfg s e = some s') :
    Counts s s' (mark s e) ∧ HandedAtTop s' := by
  have hnone : s.place ≠ .top → s.handed = none := fun hp =>
    Option.not_isSome_iff_eq_none.1 fun hsome => hp (hh hsome)
  have hkept : ∀ {t : State} {place : Place}, s.place = place → place ≠ .top →
      t.handed = s.handed → HandedAtTop t := by
    intro t place hp htop ht hsome
    rw [ht, hnone (hp ▸ htop)] at hsome
    cases hsome
  cases act_acts h with
  | reconnect | notify | pass => exact ⟨.same rfl rfl, hh⟩
  | turn hp =>
    cases hhanded : s.handed with
    | none =>
      simp only [mark, turn, hhanded, Option.isSome_none]
      refine ⟨.same ?_ rfl, fun hsome => ?_⟩
      · simp [standing, hp, hhanded]
      · simp [State.publish, hhanded] at hsome
    | some tunnel =>
      simp only [mark, turn, hhanded, Option.isSome_some]
      exact ⟨.up rfl rfl, fun hsome => by cases hsome⟩
  | h3Opened hp | h2Opened hp => exact ⟨.up rfl rfl, hkept hp Place.noConfusion rfl⟩
  | h3GivesWay hp =>
    simp only [mark, hp]
    exact ⟨.same (by simp [standing, hp]) rfl, hkept hp Place.noConfusion rfl⟩
  | h3Failed hp =>
    simp only [mark, hp]
    exact ⟨.notOpened (by simp [standing, hp]) rfl rfl, hkept hp Place.noConfusion rfl⟩
  | h2Failed hp | notOpened hp =>
    exact ⟨.notOpened (by simp [standing, hp]) rfl rfl, hkept hp Place.noConfusion rfl⟩
  | lost hp => exact ⟨.lost (by simp [standing, hp]) rfl rfl, hkept hp Place.noConfusion rfl⟩
  | waitAsked hp | waitLine hp =>
    exact ⟨.same (by simp [standing, hp]) rfl, hkept hp Place.noConfusion rfl⟩
  | waited hp | wokenAsked hp | wokenLine hp =>
    have hempty := hnone (by rw [hp]; exact Place.noConfusion)
    refine ⟨.same ?_ rfl, fun _ => rfl⟩
    simp [standing, hp, hempty, State.unpark, State.lookAgain]
  | @judged tunnel why carried hp =>
    have hjudge : standing (judge s tunnel why carried) = .failed ∧
        (judge s tunnel why carried).failures = s.failures ∧
        (judge s tunnel why carried).handed = s.handed := by
      unfold judge
      split_ifs
      · dsimp only
        split_ifs <;> exact ⟨rfl, rfl, rfl⟩
      · exact ⟨rfl, rfl, rfl⟩
    obtain ⟨hs, hf, hhanded⟩ := hjudge
    exact ⟨.ended (by simp [standing, hp]) hs hf, hkept hp Place.noConfusion hhanded⟩
  | entered hp | measured hp | pumpAsked hp | pumpLine hp | traffic hp | adapterEnded hp | asked hp
  | pingDue hp | lineChanged hp | settled hp | answered hp | unanswered hp | upgradeDue hp
  | upgradeFailed hp =>
    exact ⟨.same (by simp [standing, hp, State.pump, State.stop]) rfl,
      hkept hp Place.noConfusion rfl⟩
  | upgradeOpened hp => exact ⟨.same (by simp [standing, hp]) rfl, fun _ => rfl⟩

lemma step_counts (hh : HandedAtTop s) (h : step cfg s e = some s') :
    Counts s s' (mark s e) ∧ HandedAtTop s' := by
  obtain ⟨t, ht, rfl⟩ := step_act h
  obtain ⟨hcounts, hhanded⟩ := act_counts hh ht
  refine ⟨?_, hhanded⟩
  generalize mark s e = m at hcounts ⊢
  cases hcounts with
  | same hs hf => exact .same hs hf
  | up hs hf => exact .up hs hf
  | notOpened hb hs hf => exact .notOpened hb hs hf
  | ended hb hs hf => exact .ended hb hs hf
  | lost hb hs hf => exact .lost hb hs hf

/-! ### What a run counts -/

/-- A tunnel has come up, and was lost. -/
def lostTunnel (ms : List Mark) : ℕ := if .up ∈ ms then 1 else 0

/-- The counter, against what was counted: while there is no tunnel every phase published that none
is up is an attempt that opened none, or the tunnel that was lost. -/
structure Counted (ms : List Mark) (s : State) : Prop where
  handed : HandedAtTop s
  failures : s.failures = lostPhases ms
  resting : standing s = .resting → lostPhases ms = unopened ms + lostTunnel ms
  failed : standing s = .failed → lostPhases ms + 1 = unopened ms + lostTunnel ms
  carrying : standing s = .carrying → .up ∈ ms ∧ lostPhases ms = 0 ∧ unopened ms = 0

lemma lostTunnel_snoc {ms : List Mark} {m : Mark} (h : m ≠ .up) :
    lostTunnel (ms ++ [m]) = lostTunnel ms := by
  simp [lostTunnel, h.symm]

lemma Counted.step (hc : Counted ms s) (h : step cfg s e = some s') :
    Counted (ms ++ (mark s e).toList) s' := by
  obtain ⟨hcounts, hhanded⟩ := step_counts hc.handed h
  generalize mark s e = m at hcounts ⊢
  cases hcounts with
  | same hs hf =>
    rw [Option.toList_none, List.append_nil]
    exact ⟨hhanded, hf.trans hc.failures, fun h => hc.resting (hs ▸ h),
      fun h => hc.failed (hs ▸ h), fun h => hc.carrying (hs ▸ h)⟩
  | up hs hf =>
    rw [Option.toList_some]
    refine ⟨hhanded, by rw [hf, lostPhases_up], fun h => ?_, fun h => ?_, fun _ => ?_⟩
    · rw [hs] at h
      cases h
    · rw [hs] at h
      cases h
    · exact ⟨by simp, lostPhases_up ms, unopened_up ms⟩
  | notOpened hb hs hf =>
    have hbefore := hc.resting hb
    rw [Option.toList_some]
    refine ⟨hhanded, by rw [hf, hc.failures, lostPhases_notOpened], fun h => ?_, fun _ => ?_,
      fun h => ?_⟩
    · rw [hs] at h
      cases h
    · rw [lostPhases_notOpened, unopened_notOpened, lostTunnel_snoc (by decide)]
      omega
    · rw [hs] at h
      cases h
  | ended hb hs hf =>
    obtain ⟨hup, hlost, hunopened⟩ := hc.carrying hb
    rw [Option.toList_none, List.append_nil]
    refine ⟨hhanded, hf.trans hc.failures, fun h => ?_, fun _ => ?_, fun h => ?_⟩
    · rw [hs] at h
      cases h
    · rw [hlost, hunopened, lostTunnel, if_pos hup]
    · rw [hs] at h
      cases h
  | lost hb hs hf =>
    have hbefore := hc.failed hb
    rw [Option.toList_some]
    refine ⟨hhanded, by rw [hf, hc.failures, lostPhases_lost], fun _ => ?_, fun h => ?_,
      fun h => ?_⟩
    · rw [lostPhases_lost, unopened_lost, lostTunnel_snoc (by decide)]
      exact hbefore
    · rw [hs] at h
      cases h
    · rw [hs] at h
      cases h

variable (cfg) (core : Core) (line : ℕ) (now : Instant) (endpoint source : Option IpAddr)

lemma counted_start : Counted [] (start core line now endpoint source) :=
  ⟨fun h => Bool.noConfusion h, rfl, fun _ => rfl, fun h => Standing.noConfusion h,
    fun h => Standing.noConfusion h⟩

lemma counted_run {es : List Event} {t : State}
    (h : run (step cfg) (start core line now endpoint source) es = some t) :
    Counted (marks cfg (start core line now endpoint source) es) t := by
  refine run_history (I := fun es t => Counted (marks cfg (start core line now endpoint source) es) t)
    (counted_start core line now endpoint source) (fun es u e u' hrun hc hstep => ?_) h
  rw [marks_snoc hrun]
  exact hc.step hstep

variable {cfg core line now endpoint source}

/-- An attempt begins while nothing is carried. -/
lemma BeginsAttempt.standing (h : BeginsAttempt s e) : standing s = .resting := by
  obtain ⟨-, hp, hhanded⟩ := h
  simp [Engine.standing, hp, hhanded]

/-- What a step publishes: an attempt, numbered by the counter; a tunnel; or that there is none, with
the wait the counter gives. -/
lemma published_cases {phase : Phase} (h : published cfg s e = some phase) :
    (BeginsAttempt s e ∧ phase = .connecting (s.failures + 1)) ∨
      (∃ stages, phase = .up stages) ∨
      ∃ reason blocked, phase = .lost reason (backoff s.failures) blocked := by
  cases e with
  | turn =>
    obtain ⟨t, ht, rfl⟩ := Option.map_eq_some_iff.1 h
    obtain ⟨u, hu, rfl⟩ := step_act ht
    cases act_acts hu with
    | turn hp =>
      cases hhanded : s.handed with
      | none =>
        refine .inl ⟨⟨rfl, hp, hhanded⟩, ?_⟩
        simp only [turn, hhanded]
        rfl
      | some tunnel =>
        refine .inr (.inl ⟨tunnel.stages, ?_⟩)
        simp only [turn, hhanded]
        rfl
  | h3Opened =>
    obtain ⟨t, ht, rfl⟩ := Option.map_eq_some_iff.1 h
    obtain ⟨u, hu, rfl⟩ := step_act ht
    cases act_acts hu with
    | h3Opened => exact .inr (.inl ⟨_, rfl⟩)
  | h2Opened =>
    obtain ⟨t, ht, rfl⟩ := Option.map_eq_some_iff.1 h
    obtain ⟨u, hu, rfl⟩ := step_act ht
    cases act_acts hu with
    | h2Opened => exact .inr (.inl ⟨_, rfl⟩)
  | lost =>
    obtain ⟨t, ht, rfl⟩ := Option.map_eq_some_iff.1 h
    obtain ⟨u, hu, rfl⟩ := step_act ht
    cases act_acts hu with
    | lost => exact .inr (.inr ⟨_, _, rfl⟩)
  | _ => cases h

/-- An attempt is published exactly where one begins. -/
lemma begins_iff : BeginsAttempt s e ↔ ∃ n, published cfg s e = some (.connecting n) := by
  constructor
  · rintro ⟨rfl, hp, hhanded⟩
    refine ⟨s.failures + 1, ?_⟩
    simp only [published, step, act, hp, turn, hhanded]
    rfl
  · rintro ⟨n, hn⟩
    rcases published_cases hn with ⟨hbegins, -⟩ | ⟨stages, heq⟩ | ⟨reason, blocked, heq⟩
    · exact hbegins
    · cases heq
    · cases heq

/-- **The attempt published** is one more than those that opened no tunnel, and one more again once a
tunnel has come up. -/
lemma Counted.attempt (hc : Counted ms s) {n : ℕ} (h : published cfg s e = some (.connecting n)) :
    n = 1 + unopened ms + lostTunnel ms := by
  rcases published_cases h with ⟨hbegins, heq⟩ | ⟨stages, heq⟩ | ⟨reason, blocked, heq⟩
  · cases heq
    have hbalance := hc.resting hbegins.standing
    have hfailures := hc.failures
    omega
  · cases heq
  · cases heq

/-- **The wait published** is that of the phases before it. -/
lemma Counted.retryIn (hc : Counted ms s) {reason : String} {retryIn : Duration} {blocked : Bool}
    (h : published cfg s e = some (.lost reason retryIn blocked)) :
    retryIn = backoff (lostPhases ms) := by
  rcases published_cases h with ⟨-, heq⟩ | ⟨stages, heq⟩ | ⟨reason', blocked', heq⟩
  · cases heq
  · cases heq
  · cases heq
    rw [hc.failures]

/-- The numbers of a step are right exactly where it begins no attempt after a tunnel came up. -/
lemma Counted.right_iff (hc : Counted ms s) :
    Right cfg ms s e ↔ (BeginsAttempt s e → .up ∉ ms) := by
  constructor
  · intro hright hbegins hup
    obtain ⟨n, hn⟩ := begins_iff.1 hbegins
    have hclaimed := hright.attempt n hn
    have hmade := hc.attempt hn
    rw [lostTunnel, if_pos hup] at hmade
    omega
  · intro hnever
    refine ⟨fun n hn => ?_, fun reason retryIn blocked h => hc.retryIn h⟩
    have hmade := hc.attempt hn
    rwa [lostTunnel, if_neg (hnever (begins_iff.2 ⟨n, hn⟩)), Nat.add_zero] at hmade

/-- A step that publishes nothing leaves the phase as it was. -/
lemma phase_kept (h : step cfg s e = some s') (hnone : published cfg s e = none) :
    s'.core.phase = s.core.phase := by
  obtain ⟨t, ht, rfl⟩ := step_act h
  cases act_acts ht with
  | turn | h3Opened | h2Opened | lost =>
    rw [published, h] at hnone
    cases hnone
  | measured => exact (setCarriesIpv6_rest _ _).2
  | judged =>
    unfold judge
    split_ifs
    · dsimp only
      split_ifs <;> rfl
    · rfl
  | _ => rfl

/-- **When the attempt number and the backoff count failures in a row.** In every state of every run,
the wait published with a lost tunnel is that of the phases published without one since one came up,
and the attempt published is one more than the attempts that opened none since, exactly in the runs
that begin no attempt after a tunnel has come up: a tunnel that is lost counts as an attempt too. No
other step changes the phase. -/
theorem numbers_iff (cfg : Config) (core : Core) (line : ℕ) (now : Instant)
    (endpoint source : Option IpAddr) (events : List Event) :
    ((∀ before e after u, events = before ++ e :: after →
        run (step cfg) (start core line now endpoint source) before = some u →
        Right cfg (marks cfg (start core line now endpoint source) before) u e) ↔
      ∀ before e after u, events = before ++ e :: after →
        run (step cfg) (start core line now endpoint source) before = some u →
        BeginsAttempt u e →
        .up ∉ marks cfg (start core line now endpoint source) before) ∧
    (∀ before e after u reason retryIn blocked, events = before ++ e :: after →
      run (step cfg) (start core line now endpoint source) before = some u →
      published cfg u e = some (.lost reason retryIn blocked) →
      retryIn = backoff (lostPhases (marks cfg (start core line now endpoint source) before))) ∧
    ∀ s e s', step cfg s e = some s' → published cfg s e = none →
      s'.core.phase = s.core.phase := by
  have hcounted : ∀ {before : List Event} {u : State},
      run (step cfg) (start core line now endpoint source) before = some u →
      Counted (marks cfg (start core line now endpoint source) before) u :=
    fun hrun => counted_run cfg core line now endpoint source hrun
  refine ⟨⟨fun hright before e after u heq hrun => ?_,
    fun hnever before e after u heq hrun => ?_⟩,
    fun before e after u reason retryIn blocked _ hrun hlost => (hcounted hrun).retryIn hlost,
    fun s e s' hstep hnone => phase_kept hstep hnone⟩
  · exact (hcounted hrun).right_iff.1 (hright before e after u heq hrun)
  · exact (hcounted hrun).right_iff.2 (hnever before e after u heq hrun)

/-- The first tunnel is lost, and the attempt that follows is published as the second. -/
theorem attempt_after_loss :
    ¬∀ (cfg : Config) (events before after : List Event) (e : Event) (u : State),
      events = before ++ e :: after → run (step cfg) fresh before = some u →
      Right cfg (marks cfg fresh before) u e := by
  intro hclaim
  obtain ⟨u, hrun, hn, hnone⟩ : ∃ u, run (step auto) fresh
      [.turn, .h3Opened 61 1 74, .measured none, .traffic "the endpoint closed the tunnel",
        .judged 0, .lost, .pass (.secs 1), .waited] = some u ∧
      published auto u .turn = some (.connecting 2) ∧
      unopened (marks auto fresh [.turn, .h3Opened 61 1 74, .measured none,
        .traffic "the endpoint closed the tunnel", .judged 0, .lost, .pass (.secs 1), .waited]) =
          0 :=
    ⟨_, rfl, rfl, rfl⟩
  have hright := (hclaim auto _ _ [] .turn u rfl hrun).attempt 2 hn
  omega

end Masqr.Engine
