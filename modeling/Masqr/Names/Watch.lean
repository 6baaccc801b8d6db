import Mathlib
import Masqr.Lib.Run
import Masqr.Text

/-!
The check that a takeover took: one name watched for, by any number of takeovers at once.

The watch is a flag and a slot. The slot holds the name and the sender of the call that
put it there; a sender that is replaced or cleared away is dropped, and its receiver then
resolves with an error. Each access to the flag and each holding of the slot's lock is a step.
-/

namespace Masqr.Names.Watch

open Masqr.Lib

/-- Where a takeover is. The results are those of its wait, and of the call. -/
inductive Stage
  | idle | claimed | placed | waiting
  | waited (carried : Bool) | unflagged (carried : Bool) | unwatched (carried : Bool)
  | returned (ok : Bool)
  deriving DecidableEq

/-- What the receiver of a call has: nothing yet, the word, or the news that it never comes. -/
inductive Heard | nothing | told | dropped
  deriving DecidableEq

/-- How a wait ends. -/
inductive Wake | told | dropped | elapsed
  deriving DecidableEq

/-- The watch, the calls, and the queries that found the flag up and have not looked at the
slot. `reached` says of a call that a query for its name has looked at the slot between its
`watch_for` and its return. -/
structure World where
  watching : Option (String × ℕ)
  watched : Bool
  stage : ℕ → Stage
  heard : ℕ → Heard
  looking : ℕ → Option String
  reached : ℕ → Bool

def World.init : World where
  watching := none
  watched := false
  stage := fun _ => .idle
  heard := fun _ => .nothing
  looking := fun _ => none
  reached := fun _ => false

/-- Whether a call is between its `watch_for` and its return. -/
def Stage.inWindow : Stage → Bool
  | .placed | .waiting | .waited _ | .unflagged _ | .unwatched _ => true
  | _ => false

/-- Whether the sender of a call may be in the slot. -/
def Stage.mayHold : Stage → Bool
  | .placed | .waiting | .waited _ | .unflagged _ => true
  | _ => false

lemma Stage.inWindow_of_mayHold {st : Stage} (h : st.mayHold = true) : st.inWindow = true := by
  cases st <;> first | rfl | cases h

/-- Whether a call still waits, or is about to. -/
def Stage.isWaiting : Stage → Bool
  | .placed | .waiting => true
  | _ => false

inductive Label
  | claim (c : ℕ) (written : Bool)
  | place (c : ℕ)
  | raise (c : ℕ)
  | wake (c : ℕ) (how : Wake)
  | lower (c : ℕ)
  | clear (c : ℕ)
  | finish (c : ℕ)
  | arrive (q : ℕ) (name : String)
  | look (q : ℕ)
  deriving DecidableEq

namespace World

def goTo (w : World) (c : ℕ) (stage : Stage) : World :=
  { w with stage := Function.update w.stage c stage }

/-- Write the slot. The sender that was in it is dropped. -/
def putWatching (w : World) (new : Option (String × ℕ)) : World :=
  { w with
    watching := new
    heard := match w.watching with
      | some (_, c) => if w.heard c = .nothing then Function.update w.heard c .dropped else w.heard
      | none => w.heard }

/-- Take the sender out of the slot and send the word. -/
def tell (w : World) (c : ℕ) : World :=
  { w with watching := none, heard := Function.update w.heard c .told }

end World

/-- Whether the wait of a call can end in this way: by what its receiver has, or by the time. -/
def Wake.possible (heard : Heard) : Wake → Bool
  | .told => heard = .told
  | .dropped => heard = .dropped
  | .elapsed => true

/-- The timeout wraps whatever the receiver resolves with, so the wait counts as answered
unless the time ran out. -/
def Wake.isOk : Wake → Bool
  | .elapsed => false
  | _ => true

variable (canary : ℕ → String)

open World in
def step (w : World) : Label → Option World
  | .claim c written =>
    if w.stage c = .idle then some (w.goTo c (if written then .claimed else .returned false))
    else none
  | .place c =>
    if w.stage c = .claimed then
      some ((w.putWatching (some (toAsciiLowercase (canary c), c))).goTo c .placed)
    else none
  | .raise c =>
    if w.stage c = .placed then some ({ w with watched := true }.goTo c .waiting) else none
  | .wake c how =>
    if w.stage c = .waiting ∧ how.possible (w.heard c) then some (w.goTo c (.waited how.isOk))
    else none
  | .lower c =>
    match w.stage c with
    | .waited carried => some ({ w with watched := false }.goTo c (.unflagged carried))
    | _ => none
  | .clear c =>
    match w.stage c with
    | .unflagged carried => some ((w.putWatching none).goTo c (.unwatched carried))
    | _ => none
  | .finish c =>
    match w.stage c with
    | .unwatched carried => some (w.goTo c (.returned carried))
    | _ => none
  | .arrive q name =>
    if w.looking q = none then
      some (if w.watched then { w with looking := Function.update w.looking q (some name) } else w)
    else none
  | .look q =>
    match w.looking q with
    | none => none
    | some name =>
      let w := { w with
        looking := Function.update w.looking q none
        reached := fun c => w.reached c ||
          ((w.stage c).inWindow && eqIgnoreAsciiCase (canary c) name) }
      match w.watching with
      | some (wanted, c) => some (if eqIgnoreAsciiCase wanted name then w.tell c else w)
      | none => some w

/-- A step that does not drop the sender of another call that still waits. -/
def alone (w : World) : Label → Bool
  | .place c | .clear c =>
    w.watching.all fun (_, c') => decide (c' = c) || !(w.stage c').isWaiting
  | _ => true

/-- What holds while no call drops another's sender. -/
structure Good (w : World) : Prop where
  slot : ∀ name c, w.watching = some (name, c) →
    name = toAsciiLowercase (canary c) ∧ w.heard c = .nothing ∧ (w.stage c).mayHold = true
  unborn : ∀ c, w.stage c = .idle ∨ w.stage c = .claimed → w.heard c = .nothing
  waiting : ∀ c, (w.stage c).isWaiting = true → w.heard c = .nothing →
    w.watching = some (toAsciiLowercase (canary c), c)
  kept : ∀ c, (w.stage c).isWaiting = true → w.heard c ≠ .dropped
  told : ∀ c, w.heard c = .told → w.reached c = true
  proved : ∀ c, w.stage c = .waited true ∨ w.stage c = .unflagged true ∨
    w.stage c = .unwatched true ∨ w.stage c = .returned true → w.reached c = true

variable {canary} {w w' : World} {c : ℕ} {st : Stage}

@[simp] lemma goTo_stage (w : World) (c : ℕ) (st : Stage) :
    (w.goTo c st).stage = Function.update w.stage c st := rfl

@[simp] lemma putWatching_stage (w : World) (new : Option (String × ℕ)) :
    (w.putWatching new).stage = w.stage := rfl

/-- The results that say the wait was answered. -/
def Stage.isCarried : Stage → Bool
  | .waited b | .unflagged b | .unwatched b | .returned b => b
  | _ => false

namespace Good

lemma init : Good canary .init := by
  constructor <;> intros <;> simp_all [World.init, Stage.isWaiting]

/-- One call moves on, its receiver, the slot and the queries being as they are. -/
lemma goTo (h : Good canary w) (hslot : ∀ name, w.watching = some (name, c) → st.mayHold = true)
    (hborn : st = .idle ∨ st = .claimed → w.heard c = .nothing)
    (hwait : st.isWaiting = true → (w.stage c).isWaiting = true)
    (hproved : st.isCarried = true → w.reached c = true) : Good canary (w.goTo c st) := by
  refine ⟨fun name c' hs => ?_, fun c' hc => ?_, fun c' hc hn => ?_, fun c' hc => ?_, h.told,
    fun c' hc => ?_⟩
  · obtain ⟨h1, h2, h3⟩ := h.slot name c' hs
    refine ⟨h1, h2, ?_⟩
    by_cases hcc : c' = c
    · subst hcc; simpa using hslot name hs
    · simpa [hcc] using h3
  · by_cases hcc : c' = c
    · subst hcc; exact hborn (by simpa using hc)
    · exact h.unborn c' (by simpa [hcc] using hc)
  · refine h.waiting c' ?_ hn
    by_cases hcc : c' = c
    · subst hcc; exact hwait (by simpa using hc)
    · simpa [hcc] using hc
  · refine h.kept c' ?_
    by_cases hcc : c' = c
    · subst hcc; exact hwait (by simpa using hc)
    · simpa [hcc] using hc
  · by_cases hcc : c' = c
    · subst hcc
      refine hproved ?_
      simp only [goTo_stage, Function.update_self] at hc
      rcases hc with rfl | rfl | rfl | rfl <;> rfl
    · exact h.proved c' (by simpa [hcc] using hc)

lemma proved' (h : Good canary w) (hc : (w.stage c).isCarried = true) : w.reached c = true := by
  refine h.proved c ?_
  revert hc
  cases w.stage c <;> simp [Stage.isCarried]

/-- The slot is emptied while the call whose sender it holds, if any, waits no more. -/
lemma putNone (h : Good canary w)
    (hdone : ∀ name c', w.watching = some (name, c') → (w.stage c').isWaiting = false) :
    Good canary (w.putWatching none) := by
  -- a receiver that changed is the one whose sender was in the slot
  have hheard : ∀ c', (w.putWatching none).heard c' = w.heard c' ∨
      ((w.putWatching none).heard c' = .dropped ∧ ∃ name, w.watching = some (name, c')) := by
    intro c'
    cases hw : w.watching with
    | none => exact .inl (by simp only [World.putWatching, hw])
    | some slot =>
      obtain ⟨name, c⟩ := slot
      simp only [World.putWatching, hw]
      split_ifs with hn
      · by_cases hcc : c' = c
        · subst hcc; exact .inr ⟨by simp, name, rfl⟩
        · exact .inl (by simp [hcc])
      · exact .inl rfl
  refine ⟨nofun, fun c' hc => ?_, fun c' hc hn => ?_, fun c' hc => ?_, fun c' hc => ?_, h.proved⟩
  · rcases hheard c' with he | ⟨-, name, hw⟩
    · rw [he]; exact h.unborn c' hc
    · have := (h.slot name c' hw).2.2
      rcases hc with hc | hc <;> rw [show w.stage c' = _ from hc] at this <;> cases this
  · rcases hheard c' with he | ⟨he, -⟩
    · rw [putWatching_stage] at hc
      have hw := h.waiting c' hc (he ▸ hn)
      rw [hdone _ c' hw] at hc
      cases hc
    · rw [he] at hn; cases hn
  · rcases hheard c' with he | ⟨-, name, hw⟩
    · rw [he]; exact h.kept c' hc
    · rw [putWatching_stage, hdone _ c' hw] at hc
      cases hc
  · rcases hheard c' with he | ⟨he, -⟩
    · exact h.told c' (he ▸ hc)
    · rw [he] at hc; cases hc

/-- A call puts its name and its sender into the empty slot. -/
lemma place (h : Good canary w) (hw : w.watching = none) (hc : w.stage c = .claimed) :
    Good canary ({ w with watching := some (toAsciiLowercase (canary c), c) }.goTo c .placed) := by
  have hn := h.unborn c (.inr hc)
  refine ⟨fun name c' hs => ?_, fun c' hc' => ?_, fun c' hc' hn' => ?_, fun c' hc' => ?_, h.told,
    fun c' hc' => ?_⟩
  · simp only [World.goTo, Option.some.injEq, Prod.mk.injEq] at hs
    obtain ⟨rfl, rfl⟩ := hs
    exact ⟨rfl, hn, by simp [Stage.mayHold]⟩
  all_goals by_cases hcc : c' = c
  · subst hcc; exact hn
  · exact h.unborn c' (by simpa [hcc] using hc')
  · subst hcc; rfl
  · have := h.waiting c' (by simpa [hcc] using hc') hn'
    rw [hw] at this
    cases this
  · subst hcc
    exact fun hd => by rw [show w.heard c' = _ from hd] at hn; cases hn
  · exact h.kept c' (by simpa [hcc] using hc')
  · subst hcc
    simp at hc'
  · exact h.proved c' (by simpa [hcc] using hc')

/-- A query looks at the slot. -/
lemma look (h : Good canary w) (name : String) (looking : ℕ → Option String) :
    let w' : World := { w with
      looking := looking
      reached := fun c => w.reached c ||
        ((w.stage c).inWindow && eqIgnoreAsciiCase (canary c) name) }
    Good canary w' ∧ ∀ wanted c, w.watching = some (wanted, c) →
      eqIgnoreAsciiCase wanted name = true → Good canary (w'.tell c) := by
  intro w'
  have hmono : ∀ c, w.reached c = true → w'.reached c = true := fun c hc => by simp [w', hc]
  have h' : Good canary w' := ⟨h.slot, h.unborn, h.waiting, h.kept,
    fun c hc => hmono c (h.told c hc), fun c hc => hmono c (h.proved c hc)⟩
  refine ⟨h', fun wanted c hw he => ?_⟩
  obtain ⟨rfl, hn, hin⟩ := h.slot wanted c hw
  have hreach : w'.reached c = true := by
    rw [eqIgnoreAsciiCase_lowercase] at he
    simp [w', Stage.inWindow_of_mayHold hin, he]
  refine ⟨nofun, fun c' hc' => ?_, fun c' hc' hn' => ?_, fun c' hc' => ?_, fun c' hc' => ?_,
    h'.proved⟩
  all_goals by_cases hcc : c' = c
  · subst hcc
    rcases hc' with hc' | hc' <;> rw [show w.stage c' = _ from hc'] at hin <;> cases hin
  · simpa [World.tell, hcc] using h.unborn c' hc'
  · subst hcc
    simp [World.tell] at hn'
  · have := h.waiting c' hc' (by simpa [World.tell, hcc] using hn')
    rw [hw] at this
    exact absurd (Prod.mk.inj (Option.some.inj this)).2.symm hcc
  · subst hcc
    simp [World.tell]
  · simpa [World.tell, hcc] using h.kept c' hc'
  · subst hcc; exact hreach
  · exact hmono c' (h.told c' (by simpa [World.tell, hcc] using hc'))

lemma holder_ne (h : Good canary w) (hc : (w.stage c).mayHold = false) (name : String) :
    w.watching ≠ some (name, c) := fun hw => by
  rw [(h.slot name c hw).2.2] at hc
  cases hc

end Good

lemma Good.flag (h : Good canary w) (up : Bool) : Good canary { w with watched := up } :=
  ⟨h.slot, h.unborn, h.waiting, h.kept, h.told, h.proved⟩

lemma Good.queries (h : Good canary w) (looking : ℕ → Option String) :
    Good canary { w with looking := looking } :=
  ⟨h.slot, h.unborn, h.waiting, h.kept, h.told, h.proved⟩

/-- The sender in the slot, when a call that is alone writes it, is of no call that waits. -/
lemma Good.done_of_alone (ha : (w.watching.all fun (_, c') =>
    decide (c' = c) || !(w.stage c').isWaiting) = true) (hc : (w.stage c).isWaiting = false) (name : String) (c' : ℕ)
    (hw : w.watching = some (name, c')) : (w.stage c').isWaiting = false := by
  by_cases hcc : c' = c
  · rw [hcc]; exact hc
  · rw [hw] at ha
    simpa [hcc] using ha

lemma step_good (h : Good canary w) {l : Label} (ha : alone w l = true)
    (hs : step canary w l = some w') : Good canary w' := by
  cases l with
  | claim c written =>
    simp only [step, Option.ite_none_right_eq_some, Option.some.injEq] at hs
    obtain ⟨hc, rfl⟩ := hs
    have hne := h.holder_ne (c := c) (by rw [hc]; rfl)
    refine h.goTo (fun name hw => absurd hw (hne name)) (fun _ => h.unborn c (.inl hc)) ?_ ?_ <;>
      cases written <;> nofun
  | place c =>
    simp only [step] at hs
    split_ifs at hs with hc
    cases hs
    exact (h.putNone (Good.done_of_alone ha (by rw [hc]; rfl))).place rfl hc
  | raise c =>
    simp only [step] at hs
    split_ifs at hs with hc
    cases hs
    exact (h.flag true).goTo (fun _ _ => rfl) nofun (fun _ => by rw [hc]; rfl) nofun
  | wake c how =>
    simp only [step] at hs
    split_ifs at hs with hc
    cases hs
    refine h.goTo (fun _ _ => rfl) nofun nofun fun ht => ?_
    cases how with
    | told => exact h.told c (by simpa [Wake.possible] using hc.2)
    | dropped =>
      exact absurd (by simpa [Wake.possible] using hc.2) (h.kept c (by rw [hc.1]; rfl))
    | elapsed => cases ht
  | lower c =>
    simp only [step] at hs
    split at hs <;> cases hs
    next carried hc =>
    exact (h.flag false).goTo (fun _ _ => rfl) nofun nofun
      fun ht => h.proved' (by rw [hc]; exact ht)
  | clear c =>
    simp only [step] at hs
    split at hs <;> cases hs
    next carried hc =>
    refine (h.putNone (Good.done_of_alone ha (by rw [hc]; rfl))).goTo nofun nofun nofun
      fun ht => h.proved' (by rw [hc]; exact ht)
  | finish c =>
    simp only [step] at hs
    split at hs <;> cases hs
    next carried hc =>
    have hne := h.holder_ne (c := c) (by rw [hc]; rfl)
    exact h.goTo (fun name hw => absurd hw (hne name)) nofun nofun
      fun ht => h.proved' (by rw [hc]; exact ht)
  | arrive q name =>
    simp only [step] at hs
    split_ifs at hs <;> cases hs
    · exact h.queries _
    · exact h
  | look q =>
    simp only [step] at hs
    split at hs
    · cases hs
    · next name _ =>
      obtain ⟨h1, h2⟩ := h.look name (Function.update w.looking q none)
      split at hs
      · next wanted c hw =>
        split_ifs at hs with he <;> cases hs
        · exact h2 wanted c hw he
        · exact h1
      · cases hs
        exact h1

/-- **A takeover that is reported was proved**, in every run in which no call drops the sender
of another that still waits. -/
theorem carried_was_proved (canary : ℕ → String) (labels : List Label) (w : World)
    (hr : run (step canary) .init labels = some w)
    (ha : Meets (step canary) (fun w l => alone w l = true) .init labels) (c : ℕ) (hc : w.stage c = .returned true) :
    w.reached c = true :=
  (ha.run_inv (fun _ _ _ ha h hs => step_good h ha hs) Good.init hr).proved' (by rw [hc]; rfl)

/-- A call on its own, whose canary comes. -/
def soleCall : List Label :=
  [.claim 0 true, .place 0, .raise 0, .arrive 0 "a.masqr-check.invalid", .look 0, .wake 0 .told,
    .lower 0, .clear 0, .finish 0]

/-- Two calls and no query at all: the second replaces the watch of the first, whose
receiver resolves with an error. -/
def twoCalls : List Label :=
  [.claim 0 true, .claim 1 true, .place 0, .raise 0, .place 1, .wake 0 .dropped, .lower 0,
    .clear 0, .finish 0]

def canaries (c : ℕ) : String := if c = 0 then "a.masqr-check.invalid" else "b.masqr-check.invalid"

theorem carried_was_proved_sole :
    ∃ w, run (step canaries) .init soleCall = some w ∧ w.stage 0 = .returned true ∧
      w.reached 0 = true := by
  obtain ⟨w, hw⟩ : ∃ w, run (step canaries) .init soleCall = some w :=
    Option.isSome_iff_exists.mp (by decide +kernel)
  have hs : w.stage 0 = .returned true := by
    have : (run (step canaries) .init soleCall).map (fun w => w.stage 0) = some (.returned true) := by
      decide +kernel
    rw [hw] at this
    exact Option.some.inj this
  refine ⟨w, hw, hs, carried_was_proved canaries soleCall w hw ?_ 0 hs⟩
  decide +kernel

/-- **A takeover is reported that nothing proved.** -/
theorem unproved_takeover :
    ((run (step canaries) .init twoCalls).map fun w =>
      (w.stage 0, w.reached 0, (w.looking 0).isNone)) = some (.returned true, false, true) := by
  decide +kernel

end Masqr.Names.Watch
