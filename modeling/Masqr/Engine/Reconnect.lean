import Mathlib
import Masqr.Engine.State

/-!
Whether a reconnect that was asked for while a tunnel was up reaches the pump that carries it.
-/

namespace Masqr.Engine

open Masqr.Lib Masqr.Transport

variable {cfg : Config} {s s' : State} {e : Event}

/-! ### What a step does to the pump -/

/-- A wake-up from the request of that number is pending: the pump waits, and had not seen it. -/
def Pump.Pending (p : Pump) (request : ℕ) : Prop := ∃ seen, p.asked = some seen ∧ seen < request

/-- The pump carries a tunnel although a reconnect was asked for while that was up, and no wake-up
from the request is pending. -/
def Unheard (s : State) : Prop :=
  ∃ p request, s.place = .pumping p ∧ request ∈ s.upCalls ∧ ¬ p.Pending request

/-- A pump is entered with nothing asked for since its tunnel came up, and nothing is asked for
before it waits for that. -/
def InTime (s : State) : Event → Prop
  | .measured _ => s.upCalls = []
  | .reconnect => ∀ p, s.place = .pumping p → p.asked ≠ none
  | _ => True

lemma step_act (h : step cfg s e = some s') :
    ∃ t, act cfg s e = some t ∧ s' = { t with count := s.tick } := by
  obtain ⟨t, ht, rfl⟩ := Option.map_eq_some_iff.1 h
  exact ⟨t, ht, rfl⟩

/-- A measurement changes neither the requests nor the phase. -/
lemma setCarriesIpv6_rest (core : Core) (carries : Bool) :
    (core.setCarriesIpv6 carries).reconnects = core.reconnects ∧
      (core.setCarriesIpv6 carries).phase = core.phase := by
  unfold Core.setCarriesIpv6
  cases carries <;> dsimp only <;> split_ifs <;> exact ⟨rfl, rfl⟩

/-- What a step does to the pump and the requests: one is asked for, a tunnel comes up, its pump is
entered, the pump begins to wait for requests, it stays as it was in that, nothing of it changes, or
no tunnel is up after it. -/
inductive Moves (s s' : State) (e : Event) : Prop
  | requested (he : e = .reconnect) (hp : s'.place = s.place)
      (hr : s'.core.reconnects = s.core.reconnects + 1) (hf : s'.core.phase = s.core.phase)
      (hu : s'.upCalls = if isUp s.core.phase then (s.core.reconnects + 1) :: s.upCalls
        else s.upCalls)
  | up {tunnel : Tunnel} (hin : InTime s e) (hp : s'.place = .opened tunnel)
      (hf : isUp s'.core.phase = true) (hu : s'.upCalls = [])
  | entered {tunnel : Tunnel} {p : Pump} {carries : Option Bool} (he : e = .measured carries)
      (ho : s.place = .opened tunnel) (hp : s'.place = .pumping p) (ha : p.asked = none)
      (hr : s'.core.reconnects = s.core.reconnects) (hf : s'.core.phase = s.core.phase)
      (hu : s'.upCalls = s.upCalls)
  | subscribed {p p' : Pump} (he : e = .pumpAsked) (hp : s.place = .pumping p) (ha : p.asked = none)
      (hp' : s'.place = .pumping p') (ha' : p'.asked = some s.core.reconnects)
      (hr : s'.core.reconnects = s.core.reconnects) (hf : s'.core.phase = s.core.phase)
      (hu : s'.upCalls = s.upCalls)
  | kept {p p' : Pump} (hin : InTime s e) (hp : s.place = .pumping p) (hp' : s'.place = .pumping p')
      (ha : p'.asked = p.asked) (hr : s'.core.reconnects = s.core.reconnects)
      (hf : s'.core.phase = s.core.phase) (hu : s'.upCalls = s.upCalls)
  | idle (hin : InTime s e) (hp : s'.place = s.place) (hr : s'.core.reconnects = s.core.reconnects)
      (hf : s'.core.phase = s.core.phase) (hu : s'.upCalls = s.upCalls)
  | stopped (hin : InTime s e) (hp : ∀ p, s'.place ≠ .pumping p) (ho : ∀ t, s'.place ≠ .opened t)
      (hr : s'.core.reconnects = s.core.reconnects) (hu : s'.upCalls = s.upCalls)

/-- **What a step does to the pump and the requests.** -/
lemma act_moves (h : act cfg s e = some s') : Moves s s' e := by
  cases act_acts h with
  | reconnect => exact .requested rfl rfl rfl rfl rfl
  | notify | pass => exact .idle trivial rfl rfl rfl rfl
  | turn =>
    unfold turn
    split
    · exact .up trivial rfl rfl rfl
    · exact .stopped trivial nofun nofun rfl rfl
  | h3Opened | h2Opened => exact .up trivial rfl rfl rfl
  | entered ho => exact .entered rfl ho rfl rfl rfl rfl rfl
  | measured ho =>
    exact .entered rfl ho rfl rfl (setCarriesIpv6_rest _ _).1 (setCarriesIpv6_rest _ _).2 rfl
  | judged =>
    unfold judge
    split_ifs
    · dsimp only
      split_ifs
      · exact .stopped trivial nofun nofun rfl rfl
      · exact .stopped trivial nofun nofun rfl rfl
    · exact .stopped trivial nofun nofun rfl rfl
  | pumpAsked hp ha => exact .subscribed rfl hp ha rfl rfl rfl rfl rfl
  | pumpLine hp | pingDue hp | lineChanged hp | settled hp | answered hp | upgradeDue hp
  | upgradeFailed hp => exact .kept trivial hp rfl rfl rfl rfl rfl
  | h3GivesWay | h3Failed | h2Failed | notOpened | lost | waitAsked | waitLine | waited | wokenAsked
  | wokenLine | traffic | adapterEnded | asked | unanswered | upgradeOpened =>
    exact .stopped trivial nofun nofun rfl rfl

lemma step_moves (h : step cfg s e = some s') : Moves s s' e := by
  obtain ⟨t, ht, rfl⟩ := step_act h
  cases act_moves ht with
  | requested he hp hr hf hu => exact .requested he hp hr hf hu
  | up hin hp hf hu => exact .up hin hp hf hu
  | entered he ho hp ha hr hf hu => exact .entered he ho hp ha hr hf hu
  | subscribed he hp ha hp' ha' hr hf hu => exact .subscribed he hp ha hp' ha' hr hf hu
  | kept hin hp hp' ha hr hf hu => exact .kept hin hp hp' ha hr hf hu
  | idle hin hp hr hf hu => exact .idle hin hp hr hf hu
  | stopped hin hp ho hr hu => exact .stopped hin hp ho hr hu

/-! ### Runs -/

/-- While a tunnel is up that is published, and the pump has seen no more than was asked for. -/
structure Published (s : State) : Prop where
  opened : ∀ tunnel, s.place = .opened tunnel → isUp s.core.phase = true
  pumping : ∀ p, s.place = .pumping p → isUp s.core.phase = true
  asked : ∀ p seen, s.place = .pumping p → p.asked = some seen → seen ≤ s.core.reconnects

lemma published_step (hs : Published s) (h : step cfg s e = some s') : Published s' := by
  obtain ⟨hopened, hpumping, hasked⟩ := hs
  cases step_moves h with
  | requested he hp hr hf hu =>
    refine ⟨fun t ht => ?_, fun p hp' => ?_, fun p seen hp' ha => ?_⟩
    · rw [hf]
      exact hopened t (hp ▸ ht)
    · rw [hf]
      exact hpumping p (hp ▸ hp')
    · have hle := hasked p seen (hp ▸ hp') ha
      omega
  | up hin hp hf hu =>
    refine ⟨fun _ _ => hf, fun _ _ => hf, fun p seen hp' ha => ?_⟩
    rw [hp] at hp'
    cases hp'
  | entered he ho hp hnone hr hf hu =>
    have hup := hf ▸ hopened _ ho
    refine ⟨fun _ _ => hup, fun _ _ => hup, fun p seen hp' ha => ?_⟩
    rw [hp] at hp'
    cases hp'
    rw [hnone] at ha
    cases ha
  | subscribed he hp hnone hp' ha' hr hf hu =>
    have hup := hf ▸ hpumping _ hp
    refine ⟨fun _ _ => hup, fun _ _ => hup, fun q seen hq ha => ?_⟩
    rw [hp'] at hq
    cases hq
    rw [ha'] at ha
    cases ha
    exact hr.ge
  | kept hin hp hp' hsame hr hf hu =>
    have hup := hf ▸ hpumping _ hp
    refine ⟨fun _ _ => hup, fun _ _ => hup, fun q seen hq ha => ?_⟩
    rw [hp'] at hq
    cases hq
    rw [hr]
    exact hasked _ seen hp (hsame ▸ ha)
  | idle hin hp hr hf hu =>
    refine ⟨fun t ht => ?_, fun p hp' => ?_, fun p seen hp' ha => ?_⟩
    · exact hf ▸ hopened t (hp ▸ ht)
    · exact hf ▸ hpumping p (hp ▸ hp')
    · exact hr ▸ hasked p seen (hp ▸ hp') ha
  | stopped hin hp ho hr hu =>
    exact ⟨fun t ht => absurd ht (ho t), fun p hp' => absurd hp' (hp p),
      fun p _ hp' => absurd hp' (hp p)⟩

lemma unheard_iff {p : Pump} (hp : s.place = .pumping p) :
    Unheard s ↔ ∃ request ∈ s.upCalls, ¬ p.Pending request := by
  constructor
  · rintro ⟨q, request, hq, hrest⟩
    rw [hp] at hq
    cases hq
    exact ⟨request, hrest⟩
  · rintro ⟨request, hrest⟩
    exact ⟨p, request, hp, hrest⟩

/-- Before the pump waits for requests every one since the tunnel came up is unheard. -/
lemma unheard_unpolled {p : Pump} (hp : s.place = .pumping p) (ha : p.asked = none) :
    Unheard s ↔ s.upCalls ≠ [] := by
  have hpending (request : ℕ) : ¬ p.Pending request := by
    rintro ⟨seen, hseen, -⟩
    rw [ha] at hseen
    cases hseen
  rw [unheard_iff hp]
  constructor
  · rintro ⟨request, hmem, -⟩
    exact List.ne_nil_of_mem hmem
  · intro hne
    obtain ⟨request, hmem⟩ := List.exists_mem_of_ne_nil _ hne
    exact ⟨request, hmem, hpending request⟩

/-- **A step leaves every request heard exactly when it comes in time.** -/
lemma step_heard (hs : Published s) (hheard : ¬ Unheard s) (h : step cfg s e = some s') :
    ¬ Unheard s' ↔ InTime s e := by
  have hidle (hp : ∀ p, s'.place ≠ .pumping p) : ¬ Unheard s' := by
    rintro ⟨p, request, hp', -⟩
    exact hp p hp'
  cases step_moves h with
  | requested he hp hr hf hu =>
    subst he
    constructor
    · intro hheard' p hp' ha
      rw [hs.pumping p hp', if_pos rfl] at hu
      rw [unheard_unpolled (hp.trans hp') ha, hu] at hheard'
      exact hheard' (List.cons_ne_nil _ _)
    · rintro hin ⟨p, request, hp', hmem, hpending⟩
      rw [hp] at hp'
      obtain ⟨seen, ha⟩ := Option.ne_none_iff_exists'.1 (hin p hp')
      have hseen := hs.asked p seen hp' ha
      rw [hu, hs.pumping p hp', if_pos rfl, List.mem_cons] at hmem
      -- an earlier request is pending already, and the new one is past what was seen
      rcases hmem with rfl | hmem
      · exact hpending ⟨seen, ha, by omega⟩
      · exact hheard ⟨p, request, hp', hmem, hpending⟩
  | up hin hp hf hu =>
    refine iff_of_true (hidle fun p hp' => ?_) hin
    rw [hp] at hp'
    cases hp'
  | entered he ho hp ha hr hf hu =>
    subst he
    rw [unheard_unpolled hp ha, hu, not_not]
    rfl
  | subscribed he hp ha hp' ha' hr hf hu =>
    subst he
    refine iff_of_true ?_ trivial
    rw [unheard_unpolled hp ha, not_not] at hheard
    rintro ⟨q, request, -, hmem, -⟩
    rw [hu, hheard] at hmem
    cases hmem
  | kept hin hp hp' ha hr hf hu =>
    refine iff_of_true ?_ hin
    rw [unheard_iff hp] at hheard
    rw [unheard_iff hp', hu]
    rintro ⟨request, hmem, hpending⟩
    exact hheard ⟨request, hmem, fun ⟨seen, hseen, hless⟩ =>
      hpending ⟨seen, ha.trans hseen, hless⟩⟩
  | idle hin hp hr hf hu =>
    refine iff_of_true ?_ hin
    rintro ⟨p, request, hpump, hmem, hpending⟩
    exact hheard ⟨p, request, hp ▸ hpump, hu ▸ hmem, hpending⟩
  | stopped hin hp ho hr hu => exact iff_of_true (hidle hp) hin

/-- **A reconnect that was asked for while a tunnel was up ends it** exactly when it comes in time:
none comes between the moment the tunnel is published and the moment its pump first waits for one. -/
theorem never_unheard_iff (cfg : Config) (core : Core) (line : ℕ) (now : Instant)
    (endpoint source : Option IpAddr) {events : List Event} {t : State}
    (h : run (step cfg) (start core line now endpoint source) events = some t) :
    (∀ before, before <+: events → ∀ u,
      run (step cfg) (start core line now endpoint source) before = some u → ¬ Unheard u) ↔
    Meets (step cfg) InTime (start core line now endpoint source) events :=
  Meets.iff_prefixes (fun _ _ _ hs hstep => published_step hs hstep)
    (fun _ _ _ hs hheard hstep => step_heard hs hheard hstep)
    ⟨nofun, nofun, nofun⟩ (fun ⟨_, _, hp, _⟩ => nomatch hp) h

/-! ### A request during the measurement -/

/-- A core whose routing table accepts every row. -/
def quietCore : Core := .new ⟨fun _ => 0, fun _ => 0⟩ 0

/-- An engine that reaches its endpoint from `10.0.0.2`. -/
def fresh : State := start quietCore 0 0 (some (.v4 0xa29fc601)) (some (.v4 0x0a000002))

def auto : Config := ⟨.auto, .fronted⟩

/-- A tunnel comes up, is measured and carried, and a reconnect is asked for and acted on. -/
def inTime : List Event :=
  [.turn, .h3Opened 61 1 74, .measured (some false), .pumpAsked, .reconnect, .asked]

theorem never_unheard_iff_inTime : (∀ before, before <+: inTime → ∀ u,
      run (step auto) fresh before = some u → ¬ Unheard u) ↔ Meets (step auto) InTime fresh inTime :=
  never_unheard_iff auto quietCore 0 0 (some (.v4 0xa29fc601)) (some (.v4 0x0a000002))
    (t := (run (step auto) fresh inTime).getD fresh) rfl

/-- **A reconnect asked for while IPv6 is measured is lost**: the pump begins to wait after it. -/
theorem request_unheard : ∃ t, run (step auto) fresh
    [.turn, .h3Opened 61 1 74, .reconnect, .measured (some false), .pumpAsked] = some t ∧
      Unheard t :=
  ⟨_, rfl, _, 1, rfl, by decide, fun ⟨seen, hseen, hlt⟩ => by cases hseen; exact absurd hlt (by decide)⟩

end Masqr.Engine
