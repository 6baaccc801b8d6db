import Mathlib
import Masqr.Engine.Reconnect

/-!
Whether HTTP/3 is left alone only on an answer from after the latest word about the line.
-/

namespace Masqr.Engine

open Masqr.Lib Masqr.Transport

variable {cfg : Config} {s s' : State} {e : Event}

/-! ### What is waited for -/

/-- How much of the line's changes was seen, where one is waited for. -/
def Answering.line : Answering → Option ℕ
  | .listening seen _ => some seen
  | _ => none

/-- How many reconnects were seen, where one is waited for. -/
def Place.asked : Place → Option ℕ
  | .pumping p => p.asked
  | .waiting _ asked _ => asked
  | _ => none

/-- How much of the line's changes was seen, where one is waited for. -/
def Place.line : Place → Option ℕ
  | .pumping p => p.answering.line
  | .waiting _ _ line => line
  | _ => none

/-- A reconnect was asked for since it is waited for. -/
def AskedWoken (s : State) : Prop := ∃ seen, s.place.asked = some seen ∧ seen < s.core.reconnects

/-- The line changed since that is waited for, and the source address is not the one last seen. -/
def LineWoken (s : State) : Prop :=
  ∃ seen, s.place.line = some seen ∧ seen < s.line ∧ (s.endpointLine.moved s.source).1 = true

/-- A wake-up that gives HTTP/3 another try is pending. -/
def Woken (s : State) : Prop := AskedWoken s ∨ LineWoken s

/-- HTTP/3 is parked on an answer that is not from after the latest notice. -/
def Owed (s : State) : Prop := s.parked = true ∧ s.parkedBy ≤ s.notice

/-- HTTP/3 is owed another try, and nothing pending gives it one. -/
def Stale (s : State) : Prop := Owed s ∧ ¬ Woken s

/-- An attempt that begins with HTTP/3 parked has it parked by an attempt or a tunnel that began
after the latest notice. -/
def Follows (s : State) : Event → Prop
  | .turn => s.place = .top → s.handed = none → s.parked = true → s.notice < s.parkedBy
  | _ => True

/-! ### Steps that are heard -/

/-- When the attempt or the tunnel began for which the event parks HTTP/3. -/
def parks (s : State) : Event → Option ℕ
  | .h3Failed _ _ => match s.place with
    | .connecting (.h3 true begun) _ => some begun
    | _ => none
  | .judged carried => match s.place with
    | .ended tunnel _ =>
      if cutShortLife (s.now.since s.openedAt) carried = true ∧
          (CUT_SHORT_RUN ≤ s.cutShort + 1 ∨ s.upgraded = true) ∧ tunnel.stages.carrier = .h3
      then some tunnel.begun else none
    | _ => none
  | .upgradeFailed => match s.place with
    | .pumping ⟨_, _, _, .trying begun _⟩ => some begun
    | _ => none
  | _ => none

/-- While HTTP/3 is parked a notice reaches something that waits for it and finds the line moved;
what parks HTTP/3 began after the latest notice; and nothing that is owed another try stops waiting
for it. -/
def Heard (s : State) : Event → Prop
  | .reconnect => s.parked = true → s.place.asked ≠ none ∨ LineWoken s
  | .notify source => source ≠ s.source → s.parked = true →
    AskedWoken s ∨ s.place.line ≠ none ∧ (s.endpointLine.moved source).1 = true
  | e@(.h3Failed _ _) | e@(.judged _) | e@.upgradeFailed =>
    ∀ begun ∈ parks s e, s.notice < begun ∨ Woken s
  | .waited | .traffic _ | .adapterEnded | .unanswered _ | .upgradeOpened _ _ _ => ¬ Owed s
  | .wokenLine => (s.endpointLine.moved s.source).1 = false → ¬ Owed s
  | .pingDue => Owed s → AskedWoken s
  | _ => True

instance (s : State) : Decidable (AskedWoken s) :=
  decidable_of_iff (s.place.asked.any fun seen => decide (seen < s.core.reconnects)) (by
    simp [AskedWoken, Option.any_eq_true])

instance (s : State) : Decidable (LineWoken s) :=
  decidable_of_iff (s.place.line.any fun seen =>
    decide (seen < s.line ∧ (s.endpointLine.moved s.source).1 = true)) (by
      simp [LineWoken, Option.any_eq_true])

instance (s : State) : Decidable (Woken s) := inferInstanceAs (Decidable (_ ∨ _))

instance (s : State) : Decidable (Owed s) := inferInstanceAs (Decidable (_ ∧ _))

instance Heard.decide (s : State) : (e : Event) → Decidable (Heard s e)
  | .reconnect => inferInstanceAs (Decidable (_ → _ ∨ _))
  | .notify _ => inferInstanceAs (Decidable (_ → _ → _ ∨ _))
  | .h3Failed _ _ | .judged _ | .upgradeFailed => inferInstanceAs (Decidable (∀ _ ∈ _, _))
  | .waited | .traffic _ | .adapterEnded | .unanswered _ | .upgradeOpened _ _ _ =>
    inferInstanceAs (Decidable (¬ Owed s))
  | .wokenLine => inferInstanceAs (Decidable (_ → ¬ Owed s))
  | .pingDue => inferInstanceAs (Decidable (Owed s → AskedWoken s))
  | .pass _ | .turn | .h3Opened _ _ _ | .h2Opened _ _ _ _ | .h2Failed _ _ | .notOpened | .measured _
  | .lost | .waitAsked | .waitLine | .wokenAsked | .pumpAsked | .pumpLine | .asked | .lineChanged
  | .settled | .answered _ | .upgradeDue => isTrue trivial

/-! ### What a step does to the parking -/

/-- What a step does to the parking and what is waited for: a notice comes, HTTP/3 gets another try,
it is parked, it is left as it was with everything pending, or something stops waiting. -/
inductive Looks (s s' : State) (e : Event) : Prop
  | requested (he : e = .reconnect) (hplace : s'.place = s.place)
      (hasked : s'.core.reconnects = s.core.reconnects + 1) (hline : s'.line = s.line)
      (hmoved : s'.endpointLine = s.endpointLine) (hsource : s'.source = s.source)
      (hparked : s'.parked = s.parked) (hby : s'.parkedBy = s.parkedBy) (hnotice : s'.notice = s.tick)
  | notified (source : Option IpAddr) (he : e = .notify source) (hplace : s'.place = s.place)
      (hasked : s'.core.reconnects = s.core.reconnects) (hline : s'.line = s.line + 1)
      (hmoved : s'.endpointLine = s.endpointLine) (hsource : s'.source = source)
      (hparked : s'.parked = s.parked) (hby : s'.parkedBy = s.parkedBy)
      (hnotice : s'.notice = if source = s.source then s.notice else s.tick)
  | cleared (hin : Heard s e) (hparked : s'.parked = false)
  | parkedFor (begun : ℕ) (hin : Heard s e ↔ s.notice < begun ∨ Woken s) (hparked : s'.parked = true)
      (hby : s'.parkedBy = begun) (hnotice : s'.notice = s.notice) (hwoken : Woken s' ↔ Woken s)
  | kept (hin : Heard s e) (hparked : s'.parked = true → s.parked = true)
      (hby : s'.parkedBy = s.parkedBy) (hnotice : s'.notice = s.notice) (hwoken : Woken s → Woken s')
  | left (hin : Heard s e ↔ (Owed s → Woken s')) (hparked : s'.parked = s.parked)
      (hby : s'.parkedBy = s.parkedBy) (hnotice : s'.notice = s.notice)

lemma woken_of_place {t : State} (hplace : t.place.asked = none) (hline : t.place.line = none) :
    ¬ Woken t := by
  rintro (⟨seen, hseen, -⟩ | ⟨seen, hseen, -⟩)
  · rw [hplace] at hseen
    cases hseen
  · rw [hline] at hseen
    cases hseen

lemma parked_park (now : Instant) : (Parking.park now).parked now = true := by
  have hlong : (0 : ℕ) < PARK_FOR := by norm_num [PARK_FOR, Duration.secs]
  have hlater : now < now + PARK_FOR := Nat.lt_add_of_pos_right hlong
  rw [Parking.park, Parking.parked, Option.any_some, decide_eq_true_eq]
  exact hlater

/-- What was pending stays so where nothing that waits lets go. -/
lemma woken_of_same (hasked : ∀ seen, s.place.asked = some seen → s'.place.asked = some seen)
    (hplace : ∀ seen, s.place.line = some seen → s'.place.line = some seen)
    (hr : s'.core.reconnects = s.core.reconnects) (hline : s'.line = s.line)
    (hmoved : s'.endpointLine = s.endpointLine) (hsource : s'.source = s.source) :
    Woken s → Woken s' := by
  rintro (⟨seen, hseen, hlt⟩ | ⟨seen, hseen, hlt, hlook⟩)
  · exact .inl ⟨seen, hasked seen hseen, hr ▸ hlt⟩
  · refine .inr ⟨seen, hplace seen hseen, hline ▸ hlt, ?_⟩
    rw [hmoved, hsource]
    exact hlook

/-- What was pending in the pump stays so where what it waits for stays. -/
lemma woken_of_pump {p p' : Pump} (hp : s.place = .pumping p) (hp' : s'.place = .pumping p')
    (hasked : p.asked = none ∨ p'.asked = p.asked)
    (hanswering : p.answering.line = none ∨ p'.answering.line = p.answering.line)
    (hr : s'.core.reconnects = s.core.reconnects) (hline : s'.line = s.line)
    (hmoved : s'.endpointLine = s.endpointLine) (hsource : s'.source = s.source) :
    Woken s → Woken s' := by
  have ha : s.place.asked = p.asked := congrArg Place.asked hp
  have ha' : s'.place.asked = p'.asked := congrArg Place.asked hp'
  have hl : s.place.line = p.answering.line := congrArg Place.line hp
  have hl' : s'.place.line = p'.answering.line := congrArg Place.line hp'
  refine woken_of_same (fun seen hseen => ?_) (fun seen hseen => ?_) hr hline hmoved hsource
  · rw [ha] at hseen
    rcases hasked with hnone | hsame
    · rw [hnone] at hseen
      cases hseen
    · rw [ha', hsame, hseen]
  · rw [hl] at hseen
    rcases hanswering with hnone | hsame
    · rw [hnone] at hseen
      cases hseen
    · rw [hl', hsame, hseen]

/-- A step from where nothing waits. -/
lemma looks_idle (hasked : s.place.asked = none) (hline : s.place.line = none) (hin : Heard s e)
    (hparked : s'.parked = true → s.parked = true) (hby : s'.parkedBy = s.parkedBy)
    (hnotice : s'.notice = s.notice) : Looks s s' e :=
  .kept hin hparked hby hnotice fun h => absurd h (woken_of_place hasked hline)

/-- A step to where nothing waits any more. -/
lemma looks_left (hin : Heard s e ↔ ¬ Owed s) (hasked : s'.place.asked = none)
    (hline : s'.place.line = none) (hparked : s'.parked = s.parked)
    (hby : s'.parkedBy = s.parkedBy) (hnotice : s'.notice = s.notice) : Looks s s' e := by
  refine .left ?_ hparked hby hnotice
  rw [hin]
  exact forall_congr' fun _ => (iff_false_intro (woken_of_place hasked hline)).symm

/-- What parks nothing is heard. -/
lemma heard_of_none (he : Heard s e ↔ ∀ begun ∈ parks s e, s.notice < begun ∨ Woken s)
    (hparks : parks s e = none) : Heard s e := by
  rw [he, hparks]
  exact fun begun hbegun => absurd hbegun (Option.not_mem_none begun)

/-- HTTP/3 is parked, and what waits goes on. -/
lemma looks_park {begun : ℕ} (hparks : parks s e = some begun)
    (he : Heard s e ↔ ∀ begun ∈ parks s e, s.notice < begun ∨ Woken s)
    (hpark : s'.parking = .park s'.now) (hby : s'.parkedBy = begun) (hnotice : s'.notice = s.notice)
    (hwoken : Woken s' ↔ Woken s) : Looks s s' e := by
  refine .parkedFor begun ?_ ?_ hby hnotice hwoken
  · rw [he, hparks]
    simp
  · rw [State.parked, hpark]
    exact parked_park _

lemma looks_judged {tunnel : Tunnel} {why : String} {carried : ℕ} (hp : s.place = .ended tunnel why) :
    Looks s (judge s tunnel why carried) (.judged carried) := by
  have ha : s.place.asked = none := congrArg Place.asked hp
  have hl : s.place.line = none := congrArg Place.line hp
  have hwoken : ¬ Woken s := woken_of_place ha hl
  unfold judge
  split
  · next hcut =>
    dsimp only
    split
    · next hev =>
      rw [Bool.and_eq_true, Bool.or_eq_true, decide_eq_true_eq, decide_eq_true_eq] at hev
      have hparks : parks s (.judged carried) = some tunnel.begun := by
        simp only [parks, hp]
        rw [if_pos ⟨hcut, hev⟩]
      exact looks_park hparks Iff.rfl rfl rfl rfl
        (iff_of_false (woken_of_place rfl rfl) hwoken)
    · next hev =>
      rw [Bool.and_eq_true, Bool.or_eq_true, decide_eq_true_eq, decide_eq_true_eq] at hev
      have hparks : parks s (.judged carried) = none := by
        simp only [parks, hp]
        rw [if_neg fun hall => hev hall.2]
      exact looks_idle ha hl (heard_of_none Iff.rfl hparks) id rfl rfl
  · next hcut =>
    have hparks : parks s (.judged carried) = none := by
      simp only [parks, hp]
      rw [if_neg fun hall => hcut hall.1]
    exact looks_idle ha hl (heard_of_none Iff.rfl hparks) id rfl rfl

/-- **What a step does to the parking and what is waited for.** -/
lemma act_looks (h : act cfg s e = some s') : Looks s s' e := by
  cases act_acts h with
  | reconnect => exact .requested rfl rfl rfl rfl rfl rfl rfl rfl rfl
  | notify source => exact .notified source rfl rfl rfl rfl rfl rfl rfl rfl rfl
  | pass d => exact .kept trivial (Parking.parked_of_later (Nat.le_add_right _ _)) rfl rfl id
  | turn hp =>
    have ha : s.place.asked = none := congrArg Place.asked hp
    have hl : s.place.line = none := congrArg Place.line hp
    unfold turn
    split
    · exact looks_idle ha hl trivial id rfl rfl
    · exact looks_idle ha hl trivial id rfl rfl
  | h3Opened hp | h2Opened hp | h2Failed hp | notOpened hp | entered hp | measured hp | lost hp =>
    exact looks_idle (congrArg Place.asked hp) (congrArg Place.line hp) trivial id rfl rfl
  | @h3GivesWay begun due problem blocked hp =>
    have hwoken : ¬ Woken s := woken_of_place (congrArg Place.asked hp) (congrArg Place.line hp)
    have hparks : parks s (.h3Failed problem blocked) = some begun := by
      simp only [parks, hp]
    exact looks_park hparks Iff.rfl rfl rfl rfl (iff_of_false (woken_of_place rfl rfl) hwoken)
  | @h3Failed begun due problem blocked hp =>
    have hparks : parks s (.h3Failed problem blocked) = none := by
      simp only [parks, hp]
    exact looks_idle (congrArg Place.asked hp) (congrArg Place.line hp)
      (heard_of_none Iff.rfl hparks) id rfl rfl
  | judged hp => exact looks_judged hp
  | @waitAsked due line hp =>
    have ha : s.place.asked = none := congrArg Place.asked hp
    have hl : s.place.line = line := congrArg Place.line hp
    refine .kept trivial id rfl rfl (woken_of_same ?_ (fun _ hseen => hl ▸ hseen) rfl rfl rfl rfl)
    intro seen hseen
    rw [ha] at hseen
    cases hseen
  | @waitLine due asked hp =>
    have ha : s.place.asked = asked := congrArg Place.asked hp
    have hl : s.place.line = none := congrArg Place.line hp
    refine .kept trivial id rfl rfl (woken_of_same (fun _ hseen => ha ▸ hseen) ?_ rfl rfl rfl rfl)
    intro seen hseen
    rw [hl] at hseen
    cases hseen
  | waited | traffic | adapterEnded | unanswered | upgradeOpened =>
    exact looks_left Iff.rfl rfl rfl rfl rfl rfl
  | wokenAsked | asked => exact .cleared trivial rfl
  | wokenLine =>
    cases hlook : (s.endpointLine.moved s.source).1 with
    | true =>
      refine .cleared ?_ ?_
      · intro hfalse
        rw [hlook] at hfalse
        cases hfalse
      · simp [State.parked, State.lookAgain, hlook]
    | false =>
      refine looks_left ?_ rfl rfl ?_ rfl rfl
      · simp [Heard, hlook]
      · simp [State.parked, State.lookAgain, hlook]
  | pumpAsked hp ha =>
    exact .kept trivial id rfl rfl (woken_of_pump hp rfl (.inl ha) (.inr rfl) rfl rfl rfl rfl)
  | pumpLine hp ha | settled hp ha | answered hp ha =>
    exact .kept trivial id rfl rfl
      (woken_of_pump hp rfl (.inr rfl) (.inl (congrArg Answering.line ha)) rfl rfl rfl rfl)
  | @pingDue p seen due hp =>
    refine .left ?_ rfl rfl rfl
    have ha : s.place.asked = p.asked := congrArg Place.asked hp
    refine forall_congr' fun _ => ⟨?_, ?_⟩
    · rintro ⟨seen, hseen, hlt⟩
      exact .inl ⟨seen, ha ▸ hseen, hlt⟩
    · rintro (⟨seen, hseen, hlt⟩ | ⟨seen, hseen, -⟩)
      · exact ⟨seen, ha.trans hseen, hlt⟩
      · cases hseen
  | @lineChanged p seen due hp =>
    cases hlook : (s.endpointLine.moved s.source).1 with
    | true =>
      refine .cleared trivial ?_
      simp [State.parked, State.pump, State.lookAgain, hlook]
    | false =>
      have hparked : s.lookAgain.parked = s.parked := by
        simp [State.parked, State.lookAgain, hlook]
      have ha : s.place.asked = p.asked := congrArg Place.asked hp
      refine .kept trivial (fun hpark => hparked ▸ hpark) rfl rfl ?_
      -- the line it wakes from is where the source address did not move
      rintro (⟨seen, hseen, hlt⟩ | ⟨-, -, -, hmoves⟩)
      · exact .inl ⟨seen, ha ▸ hseen, hlt⟩
      · rw [hlook] at hmoves
        cases hmoves
  | upgradeDue hp =>
    exact .kept trivial id rfl rfl (woken_of_pump hp rfl (.inr rfl) (.inr rfl) rfl rfl rfl rfl)
  | @upgradeFailed p begun due hp hu =>
    have hparks : parks s .upgradeFailed = some begun := by
      obtain ⟨tunnel, answering, asked, upgrading⟩ := p
      cases hu
      simp only [parks, hp]
    refine looks_park hparks Iff.rfl rfl rfl rfl ⟨?_, ?_⟩
    · exact woken_of_pump rfl hp (.inr rfl) (.inr rfl) rfl rfl rfl rfl
    · exact woken_of_pump hp rfl (.inr rfl) (.inr rfl) rfl rfl rfl rfl

lemma step_looks (h : step cfg s e = some s') : Looks s s' e := by
  obtain ⟨t, ht, rfl⟩ := step_act h
  cases act_looks ht with
  | requested he hplace hasked hline hmoved hsource hparked hby hnotice =>
    exact .requested he hplace hasked hline hmoved hsource hparked hby hnotice
  | notified source he hplace hasked hline hmoved hsource hparked hby hnotice =>
    exact .notified source he hplace hasked hline hmoved hsource hparked hby hnotice
  | cleared hin hparked => exact .cleared hin hparked
  | parkedFor begun hin hparked hby hnotice hwoken =>
    exact .parkedFor begun hin hparked hby hnotice hwoken
  | kept hin hparked hby hnotice hwoken => exact .kept hin hparked hby hnotice hwoken
  | left hin hparked hby hnotice => exact .left hin hparked hby hnotice

/-! ### What is seen and what has begun -/

def Upgrading.begins : Upgrading → List ℕ
  | .trying begun _ => [begun]
  | _ => []

/-- When the attempt or the tunnels of a place began. -/
def Place.begins : Place → List ℕ
  | .connecting (.h3 _ begun) _ => [begun]
  | .opened tunnel | .ended tunnel _ => [tunnel.begun]
  | .pumping p => p.tunnel.begun :: p.upgrading.begins
  | _ => []

/-- When what HTTP/3 was or may be parked for began. -/
def State.begins (s : State) : List ℕ :=
  s.parkedBy :: (s.place.begins ++ s.handed.toList.map Tunnel.begun)

/-- No more is seen than there was, and nothing began later than now. -/
structure Dated (s : State) : Prop where
  asked : ∀ seen, s.place.asked = some seen → seen ≤ s.core.reconnects
  line : ∀ seen, s.place.line = some seen → seen ≤ s.line
  begins : ∀ begun ∈ s.begins, begun ≤ s.count

lemma parkedBy_mem : s.parkedBy ∈ s.begins := List.mem_cons_self

lemma place_mem {begun : ℕ} (h : begun ∈ s.place.begins) : begun ∈ s.begins :=
  List.mem_cons_of_mem _ (List.mem_append_left _ h)

lemma handed_mem {tunnel : Tunnel} (h : s.handed = some tunnel) : tunnel.begun ∈ s.begins := by
  simp [State.begins, h]

/-- What a step adds to these: what begins to wait has seen all there was, and what begins now. -/
structure Dates (s s' : State) : Prop where
  reconnects : s.core.reconnects ≤ s'.core.reconnects
  changes : s.line ≤ s'.line
  asked : ∀ seen, s'.place.asked = some seen →
    s.place.asked = some seen ∨ seen = s'.core.reconnects
  line : ∀ seen, s'.place.line = some seen → s.place.line = some seen ∨ seen = s'.line
  parkedBy : s'.parkedBy ∈ s.begins
  place : ∀ begun ∈ s'.place.begins, begun ∈ s.begins ∨ begun = s.tick
  handed : ∀ tunnel, s'.handed = some tunnel → s.handed = some tunnel ∨ tunnel.begun = s.tick

lemma pump_mem {p : Pump} (hp : s.place = .pumping p) {begun : ℕ}
    (h : begun ∈ p.tunnel.begun :: p.upgrading.begins) : begun ∈ s.begins := by
  refine place_mem ?_
  rw [hp]
  exact h

/-- A step inside the pump. -/
lemma dates_pump {p p' : Pump} (hp : s.place = .pumping p) (hp' : s'.place = .pumping p')
    (hasked : p'.asked = p.asked ∨ p'.asked = some s'.core.reconnects)
    (hanswering : p'.answering = p.answering ∨ p'.answering.line = none ∨
      p'.answering.line = some s'.line)
    (htunnel : p'.tunnel = p.tunnel)
    (hupgrading : ∀ begun ∈ p'.upgrading.begins, begun ∈ p.upgrading.begins ∨ begun = s.tick)
    (hr : s'.core.reconnects = s.core.reconnects) (hline : s'.line = s.line)
    (hparkedBy : s'.parkedBy ∈ s.begins) (hhanded : s'.handed = s.handed) : Dates s s' := by
  refine ⟨hr.ge, hline.ge, fun seen hseen => ?_, fun seen hseen => ?_, hparkedBy,
    fun begun hb => ?_, fun _ ht => .inl (hhanded ▸ ht)⟩
  · rw [hp'] at hseen
    rcases hasked with hsame | hnow
    · rw [hp]
      exact .inl (hsame.symm.trans hseen)
    · exact .inr (Option.some.inj (hseen.symm.trans hnow))
  · rw [hp'] at hseen
    rcases hanswering with hsame | hnone | hnow
    · rw [hp]
      exact .inl ((congrArg Answering.line hsame).symm.trans hseen)
    · cases hnone.symm.trans hseen
    · exact .inr (Option.some.inj (hseen.symm.trans hnow))
  · rw [hp'] at hb
    rcases List.mem_cons.1 hb with rfl | hb
    · exact .inl (pump_mem hp (htunnel ▸ List.mem_cons_self))
    · exact (hupgrading begun hb).imp_left fun hb => pump_mem hp (List.mem_cons_of_mem _ hb)

/-- A pump that is entered has begun nothing but its tunnel. -/
lemma measured_begins {tunnel : Tunnel} {now : Instant} {begun : ℕ}
    (h : begun ∈ (Place.pumping (.new tunnel now)).begins) :
    begun ∈ (Place.opened tunnel).begins := by
  rcases List.mem_cons.1 h with rfl | h
  · exact List.mem_singleton_self _
  · unfold Pump.new at h
    dsimp only at h
    split at h <;> cases h

/-- Nothing is waited for there. -/
lemma not_some {α : Type} {o : Option α} {P : α → Prop} (h : o = none) :
    ∀ x, o = some x → P x := by
  intro x hx
  rw [h] at hx
  cases hx

/-- A step to a place where nothing is waited for. -/
lemma dates_quiet (hr : s.core.reconnects ≤ s'.core.reconnects) (hline : s'.line = s.line)
    (hasked : s'.place.asked = none) (hnoline : s'.place.line = none)
    (hparkedBy : s'.parkedBy ∈ s.begins)
    (hplace : ∀ begun ∈ s'.place.begins, begun ∈ s.begins ∨ begun = s.tick)
    (hhanded : s'.handed = s.handed) : Dates s s' :=
  ⟨hr, hline.ge, not_some hasked, not_some hnoline, hparkedBy, hplace,
    fun _ ht => .inl (hhanded ▸ ht)⟩

/-- The pump is left with the tunnel it had. -/
lemma left_begins {p : Pump} (hp : s.place = .pumping p) :
    ∀ begun ∈ [p.tunnel.begun], begun ∈ s.begins ∨ begun = s.tick := fun _ hb =>
  .inl (pump_mem hp (List.mem_singleton.1 hb ▸ List.mem_cons_self))

lemma act_dates (h : act cfg s e = some s') : Dates s s' := by
  cases act_acts h with
  | reconnect =>
    exact ⟨Nat.le_succ _, le_rfl, fun _ => .inl, fun _ => .inl, parkedBy_mem,
      fun _ hb => .inl (place_mem hb), fun _ => .inl⟩
  | notify =>
    exact ⟨le_rfl, Nat.le_succ _, fun _ => .inl, fun _ => .inl, parkedBy_mem,
      fun _ hb => .inl (place_mem hb), fun _ => .inl⟩
  | pass =>
    exact ⟨le_rfl, le_rfl, fun _ => .inl, fun _ => .inl, parkedBy_mem,
      fun _ hb => .inl (place_mem hb), fun _ => .inl⟩
  | turn =>
    unfold turn
    split
    · next tunnel hhanded =>
      refine ⟨le_rfl, le_rfl, not_some rfl, not_some rfl, parkedBy_mem, ?_, not_some rfl⟩
      rintro begun hb
      exact .inl (List.mem_singleton.1 hb ▸ handed_mem hhanded)
    · next hhanded =>
      refine ⟨le_rfl, le_rfl, not_some rfl, not_some rfl, parkedBy_mem, ?_, fun _ => .inl⟩
      intro begun hb
      dsimp only at hb
      split at hb
      · cases hb
      · exact .inr (List.mem_singleton.1 hb)
      · exact .inr (List.mem_singleton.1 hb)
  | h3Opened | h2Opened =>
    exact dates_quiet le_rfl rfl rfl rfl parkedBy_mem
      (fun _ hb => .inr (List.mem_singleton.1 hb)) rfl
  | h3GivesWay hp =>
    refine dates_quiet le_rfl rfl rfl rfl (place_mem ?_) (List.forall_mem_nil _) rfl
    rw [hp]
    exact List.mem_singleton_self _
  | h3Failed | h2Failed | notOpened | lost | waited | wokenAsked | wokenLine =>
    exact dates_quiet le_rfl rfl rfl rfl parkedBy_mem (List.forall_mem_nil _) rfl
  | entered hp =>
    exact dates_quiet le_rfl rfl rfl rfl parkedBy_mem
      (fun begun hb => .inl (place_mem (hp ▸ measured_begins hb))) rfl
  | measured hp =>
    exact dates_quiet (setCarriesIpv6_rest _ _).1.ge rfl rfl rfl parkedBy_mem
      (fun begun hb => .inl (place_mem (hp ▸ measured_begins hb))) rfl
  | judged hp =>
    unfold judge
    split_ifs
    · dsimp only
      split_ifs
      · refine dates_quiet le_rfl rfl rfl rfl (place_mem ?_) (List.forall_mem_nil _) rfl
        rw [hp]
        exact List.mem_singleton_self _
      · exact dates_quiet le_rfl rfl rfl rfl parkedBy_mem (List.forall_mem_nil _) rfl
    · exact dates_quiet le_rfl rfl rfl rfl parkedBy_mem (List.forall_mem_nil _) rfl
  | waitAsked hp =>
    refine ⟨le_rfl, le_rfl, fun _ hseen => .inr (Option.some.inj hseen).symm, fun _ hseen => ?_,
      parkedBy_mem, List.forall_mem_nil _, fun _ => .inl⟩
    rw [hp]
    exact .inl hseen
  | waitLine hp =>
    refine ⟨le_rfl, le_rfl, fun _ hseen => ?_, fun _ hseen => .inr (Option.some.inj hseen).symm,
      parkedBy_mem, List.forall_mem_nil _, fun _ => .inl⟩
    rw [hp]
    exact .inl hseen
  | pumpAsked hp =>
    exact dates_pump hp rfl (.inr rfl) (.inl rfl) rfl (fun _ => .inl) rfl rfl parkedBy_mem rfl
  | pumpLine hp =>
    exact dates_pump hp rfl (.inl rfl) (.inr (.inr rfl)) rfl (fun _ => .inl) rfl rfl
      parkedBy_mem rfl
  | traffic hp | adapterEnded hp | asked hp | unanswered hp =>
    exact dates_quiet le_rfl rfl rfl rfl parkedBy_mem (left_begins hp) rfl
  | pingDue hp | lineChanged hp | settled hp | answered hp =>
    exact dates_pump hp rfl (.inl rfl) (.inr (.inl rfl)) rfl (fun _ => .inl) rfl rfl
      parkedBy_mem rfl
  | upgradeDue hp =>
    refine dates_pump hp rfl (.inl rfl) (.inl rfl) rfl (fun begun hb => .inr ?_) rfl rfl
      parkedBy_mem rfl
    unfold upgradeTry at hb
    dsimp only at hb
    split_ifs at hb
    · exact List.mem_singleton.1 hb
    · cases hb
  | upgradeOpened =>
    refine ⟨le_rfl, le_rfl, not_some rfl, not_some rfl, parkedBy_mem,
      List.forall_mem_nil _, fun tunnel ht => .inr ?_⟩
    cases ht
    rfl
  | @upgradeFailed p begun due hp hu =>
    have hbegun : begun ∈ p.tunnel.begun :: p.upgrading.begins := by
      rw [hu]
      exact List.mem_cons_of_mem _ (List.mem_singleton_self _)
    exact dates_pump hp rfl (.inl rfl) (.inl rfl) rfl (List.forall_mem_nil _) rfl rfl
      (pump_mem hp hbegun) rfl

/-- What waits has seen no more than there was, and nothing began later than it is. -/
lemma dated_step (hs : Dated s) (h : step cfg s e = some s') : Dated s' := by
  obtain ⟨t, ht, rfl⟩ := step_act h
  obtain ⟨hreconnects, hchanges, hasked, hline, hparkedBy, hplace, hhanded⟩ := act_dates ht
  have hold (begun : ℕ) (hb : begun ∈ s.begins) : begun ≤ s.tick :=
    (hs.begins begun hb).trans (Nat.le_succ _)
  refine ⟨fun seen hseen => ?_, fun seen hseen => ?_, fun begun hb => ?_⟩
  · rcases hasked seen hseen with hbefore | rfl
    · exact (hs.asked seen hbefore).trans hreconnects
    · exact le_rfl
  · rcases hline seen hseen with hbefore | rfl
    · exact (hs.line seen hbefore).trans hchanges
    · exact le_rfl
  · rcases List.mem_cons.1 hb with rfl | hb
    · exact hold _ hparkedBy
    rcases List.mem_append.1 hb with hb | hb
    · rcases hplace begun hb with hb | rfl
      · exact hold _ hb
      · exact le_rfl
    · obtain ⟨tunnel, htunnel, rfl⟩ := List.mem_map.1 hb
      rcases hhanded tunnel (Option.mem_toList.1 htunnel) with hb | hb
      · exact hold _ (handed_mem hb)
      · exact hb.le

/-! ### Runs -/

lemma stale_iff : ¬ Stale s ↔ (Owed s → Woken s) := by
  rw [Stale, not_and_not_right]

/-- A request that has just come wakes whatever waits for one. -/
lemma woken_requested (hs : Dated s) (hplace : s'.place = s.place)
    (hasked : s'.core.reconnects = s.core.reconnects + 1) (hline : s'.line = s.line)
    (hmoved : s'.endpointLine = s.endpointLine) (hsource : s'.source = s.source) :
    Woken s' ↔ s.place.asked ≠ none ∨ LineWoken s := by
  have hlook : LineWoken s' ↔ LineWoken s := by
    rw [LineWoken, LineWoken, hplace, hline, hmoved, hsource]
  have hwait : AskedWoken s' ↔ s.place.asked ≠ none := by
    rw [AskedWoken, hplace, hasked, Option.ne_none_iff_exists']
    constructor
    · rintro ⟨seen, hseen, -⟩
      exact ⟨seen, hseen⟩
    · rintro ⟨seen, hseen⟩
      have hle := hs.asked seen hseen
      exact ⟨seen, hseen, by omega⟩
  rw [Woken, hlook, hwait]

/-- A change that has just come wakes whatever waits for one. -/
lemma woken_notified (hs : Dated s) (hplace : s'.place = s.place)
    (hasked : s'.core.reconnects = s.core.reconnects) (hline : s'.line = s.line + 1)
    (hmoved : s'.endpointLine = s.endpointLine) :
    Woken s' ↔ AskedWoken s ∨ s.place.line ≠ none ∧ (s.endpointLine.moved s'.source).1 = true := by
  have hwait : AskedWoken s' ↔ AskedWoken s := by
    rw [AskedWoken, AskedWoken, hplace, hasked]
  have hlook : LineWoken s' ↔
      s.place.line ≠ none ∧ (s.endpointLine.moved s'.source).1 = true := by
    rw [LineWoken, hplace, hline, hmoved, Option.ne_none_iff_exists']
    constructor
    · rintro ⟨seen, hseen, -, hmoves⟩
      exact ⟨⟨seen, hseen⟩, hmoves⟩
    · rintro ⟨⟨seen, hseen⟩, hmoves⟩
      have hle := hs.line seen hseen
      exact ⟨seen, hseen, by omega, hmoves⟩
  rw [Woken, hwait, hlook]

/-- After a notice that has just come, any parking is on an older answer. -/
lemma owed_noticed (hs : Dated s) (hparked : s'.parked = s.parked) (hby : s'.parkedBy = s.parkedBy)
    (hnotice : s'.notice = s.tick) : Owed s' ↔ s.parked = true := by
  have hle : s.parkedBy ≤ s.tick := (hs.begins _ parkedBy_mem).trans (Nat.le_succ _)
  rw [Owed, hparked, hby, hnotice]
  exact and_iff_left hle

/-- **A step leaves nothing stale exactly when it is heard.** -/
lemma step_stale (hs : Dated s) (hstale : ¬ Stale s) (h : step cfg s e = some s') :
    ¬ Stale s' ↔ Heard s e := by
  rw [stale_iff] at hstale ⊢
  cases step_looks h with
  | requested he hplace hasked hline hmoved hsource hparked hby hnotice =>
    subst he
    rw [owed_noticed hs hparked hby hnotice,
      woken_requested hs hplace hasked hline hmoved hsource]
    exact Iff.rfl
  | notified source he hplace hasked hline hmoved hsource hparked hby hnotice =>
    subst he
    by_cases hsame : source = s.source
    · refine iff_of_true (fun howed => ?_) fun hne => absurd hsame hne
      rw [if_pos hsame] at hnotice
      rw [Owed, hparked, hby, hnotice] at howed
      rw [woken_notified hs hplace hasked hline hmoved, hsource, hsame]
      rcases hstale howed with hwoken | ⟨seen, hseen, -, hmoves⟩
      · exact .inl hwoken
      · exact .inr ⟨Option.ne_none_iff_exists'.2 ⟨seen, hseen⟩, hmoves⟩
    · rw [if_neg hsame] at hnotice
      rw [owed_noticed hs hparked hby hnotice,
        woken_notified hs hplace hasked hline hmoved, hsource]
      exact ⟨fun hin _ => hin, fun hin => hin hsame⟩
  | cleared hin hparked =>
    refine iff_of_true (fun howed => ?_) hin
    rw [Owed, hparked] at howed
    exact absurd howed.1 Bool.false_ne_true
  | parkedFor begun hin hparked hby hnotice hwoken =>
    have howed : Owed s' ↔ begun ≤ s.notice := by
      rw [Owed, hparked, hby, hnotice]
      exact and_iff_right rfl
    rw [hin, howed, hwoken, ← not_lt]
    exact Decidable.or_iff_not_imp_left.symm
  | kept hin hparked hby hnotice hwoken =>
    refine iff_of_true (fun howed => hwoken (hstale ⟨hparked howed.1, ?_⟩)) hin
    rw [← hby, ← hnotice]
    exact howed.2
  | left hin hparked hby hnotice =>
    have howed : Owed s' ↔ Owed s := by
      rw [Owed, Owed, hparked, hby, hnotice]
    rw [hin, howed]

variable (cfg) (core : Core) (line : ℕ) (now : Instant) (endpoint source : Option IpAddr)

lemma dated_start : Dated (start core line now endpoint source) :=
  ⟨not_some rfl, not_some rfl, fun _ hb => (List.mem_singleton.1 hb).le⟩

lemma not_stale_start : ¬ Stale (start core line now endpoint source) := by
  rintro ⟨⟨hparked, -⟩, -⟩
  cases hparked

/-- **Nothing is ever stale exactly when every step is heard.** -/
theorem never_stale_iff {events : List Event} {t : State}
    (h : run (step cfg) (start core line now endpoint source) events = some t) :
    (∀ before, before <+: events → ∀ u,
      run (step cfg) (start core line now endpoint source) before = some u → ¬ Stale u) ↔
    Meets (step cfg) Heard (start core line now endpoint source) events :=
  Meets.iff_prefixes (fun _ _ _ hs hstep => dated_step hs hstep)
    (fun _ _ _ hs hstale hstep => step_stale hs hstale hstep)
    (dated_start core line now endpoint source) (not_stale_start core line now endpoint source) h

/-- An attempt begins where nothing waits, so nothing stale is there to be parked. -/
lemma follows_of_not_stale {s : State} {e : Event} (hstale : ¬ Stale s) : Follows s e := by
  cases e with
  | turn =>
    intro hp _ hparked
    by_contra hnotice
    have hwoken : ¬ Woken s := woken_of_place (congrArg Place.asked hp) (congrArg Place.line hp)
    exact hstale ⟨⟨hparked, not_lt.1 hnotice⟩, hwoken⟩
  | _ => trivial

/-- **Parking follows the line** in every run whose steps are heard: an attempt that begins with
HTTP/3 parked has it parked by an attempt or a tunnel that began after the latest notice. -/
theorem parking_follows {events : List Event}
    (h : Meets (step cfg) Heard (start core line now endpoint source) events) :
    Meets (step cfg) Follows (start core line now endpoint source) events := by
  have hstep (s : State) (e : Event) (s' : State) (hin : Heard s e) (hs : Dated s ∧ ¬ Stale s)
      (hs' : step cfg s e = some s') : Dated s' ∧ ¬ Stale s' :=
    ⟨dated_step hs.1 hs', (step_stale hs.1 hs.2 hs').2 hin⟩
  exact h.imp hstep (fun s e _ hs => follows_of_not_stale hs.2)
    ⟨dated_start core line now endpoint source, not_stale_start core line now endpoint source⟩

/-! ### A request during the attempt -/

/-- HTTP/3 fails and is parked, HTTP/2 carries for a while, and another attempt begins. -/
def parkedAgain : List Event :=
  [.turn, .h3Failed "timed out" false, .h2Opened 20 31 12 40, .measured none, .pumpAsked, .pumpLine,
    .traffic "the endpoint closed the tunnel", .judged 0, .lost, .waitAsked, .waitLine,
    .pass (.secs 1), .waited, .turn]

theorem parking_follows_again : Meets (step auto) Follows fresh parkedAgain :=
  parking_follows auto quietCore 0 0 (some (.v4 0xa29fc601)) (some (.v4 0x0a000002))
    (by decide +kernel)

/-- The same while a reconnect is asked for before the HTTP/3 attempt has failed. -/
def askedMeanwhile : List Event :=
  [.turn, .reconnect, .h3Failed "timed out" false, .h2Opened 20 31 12 40, .measured none,
    .traffic "the endpoint closed the tunnel", .judged 0, .lost, .pass (.secs 1), .waited]

/-- **A reconnect asked for during an HTTP/3 attempt does not unpark what the attempt parks.** -/
theorem parked_meanwhile : ¬ Meets (step auto) Follows fresh (askedMeanwhile ++ [.turn]) := by
  intro h
  have hlast := h.of_run (t := (run (step auto) fresh askedMeanwhile).getD fresh) rfl
  exact absurd (hlast rfl rfl (by decide +kernel)) (by decide +kernel)

end Masqr.Engine
