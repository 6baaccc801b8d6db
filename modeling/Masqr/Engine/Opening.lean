import Mathlib
import Masqr.Engine.Reconnect
import Masqr.Transport.Opening

/-!
An attempt stage by stage: what the engine sees of it, whether a tunnel opens in time, and which
carrier's word is taken about the device and the line.
-/

namespace Masqr.Engine

open Masqr.Lib Masqr.Transport

/-- One attempt to open a tunnel: when HTTP/3 was given up on the way and why, when the attempt was
over, and what it came to; nothing where the timer came first. -/
def attempt [StatusCode] (w : Way) (hello : Hello) (choice : Choice) (parking : Parking)
    (t : Instant) :
    List (Instant × ConnectError) × Instant × Option (Except ConnectError Opened) :=
  w.clock.within CONNECT_TIMEOUT (connect w hello choice parking) t

/-- HTTP/3 is parked as long as it was, or since it was last given up. -/
def parkingLeft (parking : Parking) (givenUp : List (Instant × ConnectError)) : Parking :=
  givenUp.foldl (fun _ act => .park act.1) parking

variable {w : Way} {hello : Hello} {choice : Choice} {parking : Parking} {t : Instant}

/-- When the timer of an attempt begun at `t` fires. -/
abbrev timer (w : Way) (t : Instant) : Instant := w.clock.fires (t + CONNECT_TIMEOUT)

/-- How an attempt goes: over the one carrier the plan has, over HTTP/3 where it opens or is still
being tried when the timer fires, or over HTTP/2 in its place. -/
inductive Tries [StatusCode] (w : Way) (hello : Hello) (choice : Choice) (parking : Parking)
    (t : Instant) :
    List (Instant × ConnectError) × Instant × Option (Except ConnectError Opened) → Prop
  | overH2 (hplan : plan choice hello.handshake (parking.parked t) = .only .h2) :
      Tries w hello choice parking t
        ([], w.clock.outcome (t + CONNECT_TIMEOUT) ((w.overH2 hello).ready t))
  | overH3 (hplan : plan choice hello.handshake (parking.parked t) = .only .h3) :
      Tries w hello choice parking t
        ([], w.clock.outcome (t + CONNECT_TIMEOUT) ((w.overH3 hello).ready t))
  | h3First {r : Option (Instant × Except ConnectError Opened)}
      (hplan : plan choice hello.handshake (parking.parked t) = .h3ThenH2)
      (hr : ∀ done said, r = some (done, said) → (w.overH3 hello).ready t = some (done, said) ∧
        ∃ opened, said = .ok opened)
      (hlate : ∀ done problem, (w.overH3 hello).ready t = some (done, .error problem) →
        timer w t < done)
      (hnever : r = none → ∀ done opened, (w.overH3 hello).ready t ≠ some (done, .ok opened)) :
      Tries w hello choice parking t ([], w.clock.outcome (t + CONNECT_TIMEOUT) r)
  | h2InPlace {done : Instant} {problem : ConnectError}
      (hplan : plan choice hello.handshake (parking.parked t) = .h3ThenH2)
      (hfailed : (w.overH3 hello).ready t = some (done, .error problem)) (hin : done ≤ timer w t) :
      Tries w hello choice parking t ([(done, problem)],
        w.clock.outcome (t + CONNECT_TIMEOUT) ((w.overH2 hello).ready done))

/-- **An attempt goes one of these ways.** -/
lemma attempt_tries [StatusCode] (w : Way) (hello : Hello) (choice : Choice) (parking : Parking)
    (t : Instant) :
    Tries w hello choice parking t (attempt w hello choice parking t) := by
  unfold attempt Clock.within
  cases hplan : plan choice hello.handshake (parking.parked t) with
  | only carrier =>
    cases carrier with
    | h2 =>
      rw [connect_h2 hplan]
      exact .overH2 hplan
    | h3 =>
      rw [connect_h3 hplan]
      exact .overH3 hplan
  | h3ThenH2 =>
    rw [connect_h3ThenH2 hplan]
    cases hr : (w.overH3 hello).ready t with
    | none =>
      refine .h3First hplan (fun done said h => ?_) (fun done problem h => ?_)
        fun _ done opened h => ?_
      · cases h
      · rw [hr] at h
        cases h
      · rw [hr] at h
        cases h
    | some said =>
      obtain ⟨done, problem | opened⟩ := said
      · by_cases hin : done ≤ w.clock.fires (t + CONNECT_TIMEOUT)
        · dsimp only
          rw [List.filter_cons_of_pos (by simpa using hin)]
          exact .h2InPlace hplan hr hin
        · have hlate : w.clock.outcome (t + CONNECT_TIMEOUT) ((w.overH2 hello).ready done) =
              w.clock.outcome (t + CONNECT_TIMEOUT) none := by
            refine Clock.outcome_none.2 ⟨rfl, fun later a hlater => ?_⟩
            exact Nat.lt_of_lt_of_le (Nat.lt_of_not_le hin) (Future.later _ hlater)
          dsimp only
          rw [List.filter_cons_of_neg (by simpa using hin), hlate]
          refine .h3First hplan (fun later said h => ?_) (fun later problem' h => ?_)
            fun _ later opened h => ?_
          · cases h
          · rw [hr] at h
            cases h
            exact Nat.lt_of_not_le hin
          · rw [hr] at h
            cases h
      · refine .h3First hplan (fun later said h => ?_) (fun later problem h => ?_)
          fun h => by cases h
        · cases h
          exact ⟨hr, opened, rfl⟩
        · rw [hr] at h
          cases h

/-! ### What the engine sees of it -/

/-- Something an attempt does, or the time it takes. -/
def ofAttempt : Event → Bool
  | .turn | .pass _ | .h3Opened _ _ _ | .h3Failed _ _ | .h2Opened _ _ _ _ | .h2Failed _ _
  | .notOpened => true
  | _ => false

/-- The attempt after so many failures is still the one that is told of. -/
structure Failing (n : ℕ) (s : State) : Prop where
  failures : s.failures = n
  phase : s.core.phase = .connecting (n + 1)

/-- The engine has what an attempt came to, after so many failures. -/
def Has (reason : ℕ → Option String) (failures : ℕ) (s : State) :
    Option (Except ConnectError Opened) → Prop
  | some (.ok opened) => s.core.phase = .up opened.stages ∧ s.failures = 0 ∧
      ∃ begun, s.place = .opened ⟨opened.stages, begun⟩
  | some (.error problem) =>
    s.place = .failed (problem.text reason) problem.isBlocked ∧ Failing failures s
  | none => s.place = .failed "the tunnel did not open within 20 s" false ∧ Failing failures s

variable {cfg : Config} {s s' : State} {due : Instant} {failures : ℕ}

/-- Time passes and then something happens. -/
lemma run_pass {e : Event} (hle : s.now ≤ t)
    (h : act cfg { s with now := t, count := s.count + 1 } e = some s') :
    run (step cfg) s [.pass (t - s.now), e] = some { s' with count := s.count + 2 } := by
  have hnow : s.now + (t - s.now) = t := Nat.add_sub_cancel' hle
  have hpass : step cfg s (.pass (t - s.now)) = some { s with now := t, count := s.count + 1 } := by
    simp [step, act, hnow, State.tick]
  refine (run_cons _).2 ⟨_, hpass, (run_cons _).2 ⟨_, ?_, rfl⟩⟩
  rw [step, h]
  rfl

/-- An event of an attempt takes the engine where it has what the attempt came to. -/
def Told (cfg : Config) (reason : ℕ → Option String) (failures : ℕ) (place : Place)
    (result : Option (Except ConnectError Opened)) (now : Instant) : Prop :=
  ∀ s : State, s.place = place → s.now = now → Failing failures s → ∃ e s', ofAttempt e = true ∧
    act cfg s e = some s' ∧ s'.now = now ∧ s'.parking = s.parking ∧ Has reason failures s' result

/-- A run of an attempt's steps, to where the engine has what it came to. -/
def Ran (cfg : Config) (reason : ℕ → Option String) (s : State) (parking : Parking)
    (came : Instant × Option (Except ConnectError Opened)) : Prop :=
  ∃ es s', run (step cfg) s es = some s' ∧ (∀ e ∈ es, ofAttempt e = true) ∧ s'.now = came.1 ∧
    s'.parking = parking ∧ Has reason s.failures s' came.2

lemma Ran.cons {reason : ℕ → Option String} {parking : Parking}
    {came : Instant × Option (Except ConnectError Opened)} {es : List Event}
    (hes : run (step cfg) s es = some s') (hof : ∀ e ∈ es, ofAttempt e = true)
    (hfailures : s'.failures = s.failures) (h : Ran cfg reason s' parking came) :
    Ran cfg reason s parking came := by
  obtain ⟨es', s'', hrun, hof', hrest⟩ := h
  rw [hfailures] at hrest
  refine ⟨es ++ es', s'', (run_append _).2 ⟨s', hes, hrun⟩, fun e he => ?_, hrest⟩
  exact (List.mem_append.1 he).elim (hof e) (hof' e)

lemma told_none {reason : ℕ → Option String} {a : Attempt} {now : Instant} (hdue : due ≤ now) :
    Told cfg reason failures (.connecting a due) none now := fun s hplace hnow hfailing => by
  refine ⟨.notOpened, s.fail "the tunnel did not open within 20 s" false, rfl, ?_, hnow, rfl, rfl,
    hfailing.failures, hfailing.phase⟩
  simp [act, hplace, hnow, hdue]

lemma told_h2 [StatusCode] {reason : ℕ → Option String} {said : Except ConnectError Opened}
    {asked now : Instant} (h : (w.overH2 hello).ready asked = some (now, said)) :
    Told cfg reason failures (.connecting .h2 due) (some said) now :=
      fun s hplace hnow hfailing => by
  obtain ⟨problem | opened, -, rfl⟩ := Attempt.map_eq.1 h
  · refine ⟨.h2Failed (problem.text reason) problem.isBlocked,
      s.fail (problem.text reason) problem.isBlocked, rfl, ?_, hnow, rfl, rfl,
      hfailing.failures, hfailing.phase⟩
    simp [act, hplace]
  · refine ⟨.h2Opened opened.tcpMs opened.tlsMs opened.http2Ms opened.connectMs,
      s.up ⟨(Opened.h2 opened).stages, s.tick⟩, rfl, ?_, hnow, rfl, rfl, rfl, s.tick, rfl⟩
    simp [act, hplace, Opened.stages]

/-- HTTP/3 opened, or there is nothing to try after it. -/
lemma told_h3 [StatusCode] {reason : ℕ → Option String} {said : Except ConnectError Opened}
    {asked now : Instant} {thenH2 : Bool} {begun : ℕ}
    (h : (w.overH3 hello).ready asked = some (now, said))
    (hend : thenH2 = false ∨ ∃ opened, said = .ok opened) :
    Told cfg reason failures (.connecting (.h3 thenH2 begun) due) (some said) now :=
      fun s hplace hnow hfailing => by
  obtain ⟨problem | opened, -, rfl⟩ := Attempt.map_eq.1 h
  · rcases hend with rfl | ⟨opened, hopened⟩
    · refine ⟨.h3Failed (problem.text reason) problem.isBlocked,
        s.fail (problem.text reason) problem.isBlocked, rfl, ?_, hnow, rfl, rfl,
        hfailing.failures, hfailing.phase⟩
      simp [act, hplace]
    · cases hopened
  · refine ⟨.h3Opened opened.quicMs opened.settingsMs opened.connectMs,
      s.up ⟨(Opened.h3 opened).stages, s.tick⟩, rfl, ?_, hnow, rfl, rfl, rfl, s.tick, rfl⟩
    simp [act, hplace, Opened.stages]

/-- What a wait with a timer comes to is told when it is over. -/
lemma ran_outcome {reason : ℕ → Option String} {c : Clock} {a : Attempt}
    {r : Option (Instant × Except ConnectError Opened)} (hplace : s.place = .connecting a due)
    (hphase : s.core.phase = .connecting (s.failures + 1)) (hnow : s.now ≤ c.fires due)
    (hr : ∀ done said, r = some (done, said) →
      s.now ≤ done ∧ Told cfg reason s.failures (.connecting a due) (some said) done) :
    Ran cfg reason s s.parking (c.outcome due r) := by
  have hwait {now : Instant} {result : Option (Except ConnectError Opened)} (hle : s.now ≤ now)
      (htold : Told cfg reason s.failures (.connecting a due) result now) :
      Ran cfg reason s s.parking (now, result) := by
    obtain ⟨e, s', hof, hact, hnow', hparking, hhas⟩ :=
      htold { s with now := now, count := s.count + 1 } hplace rfl ⟨rfl, hphase⟩
    refine ⟨_, _, run_pass hle hact, ?_, hnow', hparking, ?_⟩
    · rw [List.forall_mem_cons, List.forall_mem_singleton]
      exact ⟨rfl, hof⟩
    · cases result with
      | none => exact ⟨hhas.1, hhas.2.failures, hhas.2.phase⟩
      | some said =>
        cases said with
        | ok opened => exact hhas
        | error problem => exact ⟨hhas.1, hhas.2.failures, hhas.2.phase⟩
  obtain ⟨⟨now, result⟩, hcame⟩ : ∃ came, c.outcome due r = came := ⟨_, rfl⟩
  rw [hcame]
  cases result with
  | none =>
    obtain ⟨rfl, -⟩ := Clock.outcome_none.1 hcame
    exact hwait hnow (told_none (c.le_fires due))
  | some said =>
    obtain ⟨hready, -⟩ := Clock.outcome_some.1 hcame
    exact hwait (hr now said hready).1 (hr now said hready).2

/-- A round of the loop that begins an attempt. -/
lemma run_turn (hplace : s.place = .top) (hhanded : s.handed = none) {a : Attempt}
    (ha : a = match plan cfg.choice cfg.handshake (s.parking.parked s.now) with
      | .only .h2 => .h2
      | .only .h3 => .h3 false s.tick
      | .h3ThenH2 => .h3 true s.tick) :
    run (step cfg) s [.turn] = some { s.publish (.connecting (s.failures + 1)) with
      upgraded := false
      place := .connecting a (s.now + CONNECT_TIMEOUT)
      count := s.tick } := by
  subst ha
  refine (run_cons _).2 ⟨_, ?_, rfl⟩
  rcases hplan : plan cfg.choice cfg.handshake (s.parking.parked s.now) with (_ | _) | _ <;>
    simp [step, act, hplace, turn, hhanded, State.parked, hplan]

/-- **An attempt, stage by stage, is a run of the engine's steps**: from the loop's top to where
the tunnel is up, the failure is to be told, or the timer came first, at the moment it is over, with
HTTP/3 parked since it was given up on the way, and as it was where it was not. The phase is that of
the tunnel, or still that of the attempt. -/
theorem attempt_ran [StatusCode] (w : Way) (hello : Hello) (choice : Choice)
    (reason : ℕ → Option String) (hplace : s.place = .top) (hhanded : s.handed = none) :
    Ran ⟨choice, hello.handshake⟩ reason s
      (parkingLeft s.parking (attempt w hello choice s.parking s.now).1)
      (attempt w hello choice s.parking s.now).2 := by
  have htries := attempt_tries w hello choice s.parking s.now
  have hin : s.now ≤ timer w s.now :=
    Nat.le_trans (Nat.le_add_right _ _) (w.clock.le_fires _)
  have hone : ∀ e ∈ [Event.turn], ofAttempt e = true := by
    rw [List.forall_mem_singleton]
    rfl
  generalize attempt w hello choice s.parking s.now = came at htries
  cases htries with
  | overH2 hplan =>
    refine .cons (run_turn hplace hhanded (a := .h2) (by rw [hplan])) hone rfl ?_
    refine ran_outcome rfl rfl hin fun done said hready => ?_
    exact ⟨Future.later _ hready, told_h2 hready⟩
  | overH3 hplan =>
    refine .cons (run_turn hplace hhanded (a := .h3 false s.tick) (by rw [hplan])) hone rfl ?_
    refine ran_outcome rfl rfl hin fun done said hready => ?_
    exact ⟨Future.later _ hready, told_h3 hready (.inl rfl)⟩
  | h3First hplan hr hlate hnever =>
    refine .cons (run_turn hplace hhanded (a := .h3 true s.tick) (by rw [hplan])) hone rfl ?_
    refine ran_outcome rfl rfl hin fun done said hready => ?_
    obtain ⟨hready', hopened⟩ := hr done said hready
    exact ⟨Future.later _ hready', told_h3 hready' (.inr hopened)⟩
  | @h2InPlace done problem hplan hfailed hdone =>
    refine .cons (run_turn hplace hhanded (a := .h3 true s.tick) (by rw [hplan])) hone rfl ?_
    have hle : s.now ≤ done := Future.later _ hfailed
    refine .cons (run_pass hle (e := .h3Failed (problem.text reason) problem.isBlocked) rfl)
      ?_ rfl ?_
    · rw [List.forall_mem_cons, List.forall_mem_singleton]
      exact ⟨rfl, rfl⟩
    · refine ran_outcome rfl rfl hdone fun later said hready => ?_
      exact ⟨Future.later _ hready, told_h2 hready⟩

/-- UDP to the endpoint is dropped, and TCP to it is not; the CONNECT is answered with a status. -/
def noUdp (status : ℕ) : Way where
  clock := ⟨fun _ => 0⟩
  quic := { Quic.welcoming with connecting := .never }
  tcp := {
    tls := .ok ()
    tcp := .after (Duration.millis 20) (.ok ())
    nodelay := .ok ()
    session := .after (Duration.millis 31) (.ok ())
    http2 := .after (Duration.millis 12) (.ok ())
    request := .ok ()
    sent := .ok ()
    response := .after (Duration.millis 40) (.ok status) }
  identity := Warp.device

theorem attempt_ran_noUdp :
    letI := StatusCode.documented
    Ran ⟨.auto, .fronted⟩ (fun _ => none) (start quietCore 0 0 none none)
      (parkingLeft .unpark
        (attempt (noUdp 200) ⟨.fronted, none, 1280⟩ .auto .unpark 0).1)
      (attempt (noUdp 200) ⟨.fronted, none, 1280⟩ .auto .unpark 0).2 :=
  letI := StatusCode.documented
  attempt_ran (s := start quietCore 0 0 none none) (noUdp 200) ⟨.fronted, none, 1280⟩ .auto
    (fun _ => none) rfl rfl

/-! ### In time -/

lemma overH3_ends [StatusCode] {slack : Duration} (hc : w.clock.Keeps slack) :
    (w.overH3 hello).Ends (Quic.OPENING slack) := fun t => by
  obtain ⟨t', said, hready, hle⟩ := Quic.connect_ends w.quic hello hc w.identity t
  exact ⟨t', said.map Opened.h3, Attempt.map_eq.2 ⟨said, hready, rfl⟩, hle⟩

/-- **HTTP/3 leaves HTTP/2 the time it needs.** Where the stages of HTTP/2 fit in what the longest
HTTP/3 attempt leaves of the time there is, and HTTP/3 is not all that is to be tried, a tunnel
opens, whatever HTTP/3 meets; it is one over HTTP/2 where HTTP/3 was given up. -/
theorem attempt_opens [StatusCode] {slack tcp session http2 response : Duration}
    (hc : w.clock.Keeps slack)
    (hplan : plan choice hello.handshake (parking.parked t) ≠ .only .h3)
    (hopens : Tcp.Opens w.tcp w.identity tcp session http2 response)
    (hfits : Quic.OPENING slack + (tcp + session + http2 + response) ≤ CONNECT_TIMEOUT) :
    ∃ givenUp t' opened, attempt w hello choice parking t = (givenUp, t', some (.ok opened)) ∧
      t' ≤ t + (Quic.OPENING slack + (tcp + session + http2 + response)) ∧
      (givenUp = [] ∨ ∃ done problem, givenUp = [(done, problem)] ∧
        done ≤ t + Quic.OPENING slack ∧ opened.stages.carrier = .h2) := by
  generalize hn : tcp + session + http2 + response = n at hfits ⊢
  have htries := attempt_tries w hello choice parking t
  have hends : ∃ t' said, (w.overH3 hello).ready t = some (t', said) ∧
      t' ≤ t + Quic.OPENING slack := overH3_ends hc t
  have htimer : t + (Quic.OPENING slack + n) ≤ timer w t :=
    Nat.le_trans (Nat.add_le_add_left hfits t) (w.clock.le_fires _)
  have hspare : t + Quic.OPENING slack ≤ t + (Quic.OPENING slack + n) :=
    Nat.add_le_add_left (Nat.le_add_right _ n) t
  have hover {begun : Instant} (hhigh : begun ≤ t + Quic.OPENING slack) :
      ∃ t' opened, w.clock.outcome (t + CONNECT_TIMEOUT) ((w.overH2 hello).ready begun) =
        (t', some (.ok opened)) ∧ t' ≤ t + (Quic.OPENING slack + n) ∧
          opened.stages.carrier = .h2 := by
    obtain ⟨t', opened, hready, hle⟩ := Tcp.connect_opens hopens hello begun
    rw [hn] at hle
    have hin : t' ≤ t + (Quic.OPENING slack + n) := by
      rw [← Nat.add_assoc]
      exact Nat.le_trans hle (Nat.add_le_add_right hhigh n)
    have hready' : (w.overH2 hello).ready begun = some (t', .ok (.h2 opened)) :=
      Attempt.map_eq.2 ⟨.ok opened, hready, rfl⟩
    exact ⟨t', .h2 opened, Clock.outcome_some.2 ⟨hready', Nat.le_trans hin htimer⟩, hin, rfl⟩
  generalize attempt w hello choice parking t = came at htries
  cases htries with
  | overH2 _ =>
    obtain ⟨t', opened, hcame, hin, -⟩ := hover (Nat.le_add_right t _)
    exact ⟨[], t', opened, by rw [hcame], hin, .inl rfl⟩
  | overH3 honly => exact absurd honly hplan
  | @h3First r _ hr hlate hnever =>
    obtain ⟨t', said, hready, hle⟩ := hends
    have hin := Nat.le_trans hle hspare
    cases said with
    | error problem =>
      exact absurd (Nat.le_trans hin htimer) (Nat.not_le.2 (hlate t' problem hready))
    | ok opened =>
      cases hfirst : r with
      | none => exact absurd hready (hnever hfirst t' opened)
      | some first =>
        obtain ⟨done, said⟩ := first
        have hsame := (hr done said hfirst).1
        rw [hready] at hsame
        cases hsame
        refine ⟨[], t', opened, ?_, hin, .inl rfl⟩
        rw [Clock.outcome_some.2 ⟨rfl, Nat.le_trans hin htimer⟩]
  | @h2InPlace done problem _ hfailed _ =>
    obtain ⟨t', said, hready, hle⟩ := hends
    rw [hfailed] at hready
    cases hready
    obtain ⟨t', opened, hcame, hin, hcarrier⟩ := hover hle
    exact ⟨[(done, problem)], t', opened, by rw [hcame], hin,
      .inr ⟨done, problem, rfl, hle, hcarrier⟩⟩

lemma opens_noUdp : Tcp.Opens (noUdp 200).tcp Warp.device (Duration.millis 20) (Duration.millis 31)
    (Duration.millis 12) (Duration.millis 40) where
  tls := rfl
  address := by decide +kernel
  connects _ := ⟨_, rfl, Nat.le_refl _⟩
  nodelay := rfl
  shakes _ := ⟨_, rfl, Nat.le_refl _⟩
  speaks _ := ⟨_, rfl, Nat.le_refl _⟩
  request := rfl
  sent := rfl
  accepts _ := ⟨_, 200, rfl, Nat.le_refl _, by decide⟩

theorem attempt_opens_noUdp :
    letI := StatusCode.documented
    ∃ givenUp t' opened, attempt (noUdp 200) ⟨.fronted, none, 1280⟩ .auto .unpark 0 =
        (givenUp, t', some (.ok opened)) ∧
      t' ≤ 0 + (Quic.OPENING 0 + (Duration.millis 20 + Duration.millis 31 + Duration.millis 12 +
        Duration.millis 40)) ∧ (givenUp = [] ∨ ∃ done problem,
        givenUp = [(done, problem)] ∧ done ≤ 0 + Quic.OPENING 0 ∧ opened.stages.carrier = .h2) :=
  letI := StatusCode.documented
  attempt_opens (fun _ => Nat.le_refl 0) (by decide) opens_noUdp (by decide +kernel)

/-! ### Whose word is taken -/

/-- Whether another device is registered over the problem. -/
def replacesDevice [StatusCode] : ConnectError → Bool
  | .refused status => Warp.refusalIsAboutTheDevice status
  | _ => false

/-- **A device is replaced on HTTP/2's word alone, and the line is blamed on the word of the carrier
that was tried last**: a refusal that replaces one is HTTP/2's own answer to the CONNECT, whatever
HTTP/3 said before it, and a tunnel that HTTP/3 left unanswered is not what an attempt reports where
HTTP/2 was tried in its place. -/
theorem attempt_blames [StatusCode] {givenUp : List (Instant × ConnectError)} {t' : Instant}
    {problem : ConnectError}
    (h : attempt w hello choice parking t = (givenUp, t', some (.error problem))) :
    (replacesDevice problem = true →
      plan choice hello.handshake (parking.parked t) ≠ .only .h3 ∧
      ∃ status asked answered, problem = .refused status ∧ 400 ≤ status ∧ status < 500 ∧
        w.tcp.response.ready asked = some (answered, .ok status)) ∧
    (problem.isBlocked = true →
      plan choice hello.handshake (parking.parked t) = .only .h3 ∧
        (∃ sni how, problem = .h3Unanswered sni how) ∨
      plan choice hello.handshake (parking.parked t) ≠ .only .h3 ∧
        ∃ sni how, problem = .handshakeCut sni how) := by
  have htries := attempt_tries w hello choice parking t
  have hh2 {begun done : Instant} (hready : (w.overH2 hello).ready begun =
      some (done, .error problem)) : OfH2 w.tcp problem := by
    obtain ⟨problem' | opened, hfailed, hsaid⟩ := Attempt.map_eq.1 hready <;> cases hsaid
    exact Tcp.fails_connect w.tcp hello w.identity _ _ _ hfailed
  have hh3 {begun done : Instant} (hready : (w.overH3 hello).ready begun =
      some (done, .error problem)) : OfH3 problem := by
    obtain ⟨problem' | opened, hfailed, hsaid⟩ := Attempt.map_eq.1 hready <;> cases hsaid
    exact Quic.fails_connect w.identity _ _ _ hfailed
  have hword : plan choice hello.handshake (parking.parked t) = .only .h3 ∧ OfH3 problem ∨
      plan choice hello.handshake (parking.parked t) ≠ .only .h3 ∧ OfH2 w.tcp problem := by
    rw [h] at htries
    generalize hcame : (givenUp, t', some (Except.error problem)) = came at htries
    cases htries with
    | overH2 hplan =>
      obtain ⟨-, hrest⟩ := Prod.mk.inj hcame
      refine .inr ⟨by rw [hplan]; decide, hh2 (Clock.outcome_some.1 hrest.symm).1⟩
    | overH3 hplan =>
      obtain ⟨-, hrest⟩ := Prod.mk.inj hcame
      exact .inl ⟨hplan, hh3 (Clock.outcome_some.1 hrest.symm).1⟩
    | h3First hplan hr hlate hnever =>
      obtain ⟨-, hrest⟩ := Prod.mk.inj hcame
      obtain ⟨-, opened, hopened⟩ := hr _ _ (Clock.outcome_some.1 hrest.symm).1
      cases hopened
    | h2InPlace hplan hfailed hin =>
      obtain ⟨-, hrest⟩ := Prod.mk.inj hcame
      refine .inr ⟨by rw [hplan]; decide, hh2 (Clock.outcome_some.1 hrest.symm).1⟩
  refine ⟨fun hreplaces => ?_, fun hblocked => ?_⟩
  · cases problem with
    | refused status =>
      obtain ⟨hlow, hhigh⟩ : 400 ≤ status ∧ status < 500 :=
        StatusCode.isClientError_iff.1 hreplaces
      rcases hword with ⟨-, hofH3⟩ | ⟨hplan, -, asked, answered, hanswer⟩
      · exact hofH3.elim
      · exact ⟨hplan, status, asked, answered, rfl, hlow, hhigh, hanswer⟩
    | _ => cases hreplaces
  · cases problem with
    | handshakeCut sni how =>
      rcases hword with ⟨-, hofH3⟩ | ⟨hplan, -⟩
      · exact hofH3.elim
      · exact .inr ⟨hplan, sni, how, rfl⟩
    | h3Unanswered sni how =>
      rcases hword with ⟨hplan, -⟩ | ⟨-, hofH2⟩
      · exact .inl ⟨hplan, sni, how, rfl⟩
      · exact hofH2.elim
    | _ => cases hblocked

theorem attempt_blames_noUdp :
    letI := StatusCode.documented
    (replacesDevice (.refused 403) = true →
      plan .auto .fronted (Parking.unpark.parked 0) ≠ .only .h3 ∧
      ∃ status asked answered, ConnectError.refused 403 = .refused status ∧ 400 ≤ status ∧
        status < 500 ∧ (noUdp 403).tcp.response.ready asked = some (answered, .ok status)) ∧
    ((ConnectError.refused 403).isBlocked = true →
      plan .auto .fronted (Parking.unpark.parked 0) = .only .h3 ∧
        (∃ sni how, ConnectError.refused 403 = .h3Unanswered sni how) ∨
      plan .auto .fronted (Parking.unpark.parked 0) ≠ .only .h3 ∧
        ∃ sni how, ConnectError.refused 403 = .handshakeCut sni how) :=
  letI := StatusCode.documented
  have hrefused : attempt (noUdp 403) ⟨.fronted, none, 1280⟩ .auto .unpark 0 =
      ([(Quic.HANDSHAKE_WAIT, .quicUnavailable "no answer within 4 s")],
        Quic.HANDSHAKE_WAIT + Duration.millis 103, some (.error (.refused 403))) := by
    decide +kernel
  attempt_blames hrefused

end Masqr.Engine
