import Masqr.Names.TakeOver

/-!
What a core that is killed leaves behind, and what the next sweep makes of it.

A history is what any number of core runs do to the rules, each takeover and each sweep with
what becomes of its calls. A run that is killed is one whose last step is; the next run's
steps follow it.
-/

namespace Masqr.Names

open Masqr.Lib Masqr.Lib.Prog Masqr.Lib.Outcome

/-- What a core does to the rules. -/
inductive Step
  | takeOver (server : String) (os : ℕ → Outcome)
  | release (os : ℕ → Outcome)

/-- The rules a step leaves. -/
def Step.leave (r : Rules) : Step → Rules
  | .takeOver server os => (exec perform (Names.takeOver server).run os r).state
  | .release os => (exec perform Names.release os r).state

/-- The rules a history leaves. -/
def history (r : Rules) (steps : List Step) : Rules := steps.foldl Step.leave r

/-- A step that does not leave the rule of this core without its mark: a takeover that is not
cut off between creating the rule and writing the mark, unless the rule has the mark already. -/
def Step.Whole (r : Rules) : Step → Prop
  | .takeOver _ os => lead 6 os = 0 ∨ lead 6 os = 6 ∨ Mine r RULE
  | .release _ => True

/-- `r` differs from `r0` in the rule of this core alone. -/
def Apart (r0 r : Rules) : Prop := ∀ name, name ≠ RULE → r[name]? = r0[name]?

/-- The rule of this core is not there, or carries the mark. -/
def Seen (r : Rules) : Prop := r[RULE]? = none ∨ Mine r RULE

lemma lead_six (os : ℕ → Outcome) :
    (lead 7 os = 0 ↔ lead 6 os = 0) ∧ (6 ≤ lead 7 os ↔ lead 6 os = 6) := by
  have h := lead_snoc 6 os
  have hle := lead_le 6 os
  constructor <;> constructor <;> intro h' <;> rw [h] at * <;> split_ifs at * <;> omega

/-- What a takeover may leave: the rules as they were, or a claim of them that got to some
value, or that claim with a marked rule gone. -/
lemma takeOver_leaves (server : String) (os : ℕ → Outcome) (r : Rules) :
    (lead 7 os = 0 ∧ Step.leave r (.takeOver server os) = r) ∨
    (∃ k, lead 7 os = k + 1 ∧ k ≤ 6 ∧ ∀ name,
      (Step.leave r (.takeOver server os))[name]? = (claimed server r k)[name]? ∨
        (k = 6 ∧ Mine (claimed server r k) name ∧
          (Step.leave r (.takeOver server os))[name]? = none)) := by
  obtain ⟨hcut, hwhole⟩ := takeOver_course server r os
  have hle := lead_le 7 os
  by_cases h7 : lead 7 os < 7
  · have hs := (hcut h7).1
    rcases hj : lead 7 os with _ | k
    · rw [hj] at hs
      exact .inl ⟨rfl, hs⟩
    · rw [hj] at hs
      exact .inr ⟨k, rfl, by omega, fun name => .inl (congrArg (·[name]?) hs)⟩
  · have h7 : lead 7 os = 7 := by omega
    obtain ⟨hacc, hkill, href⟩ := hwhole h7
    refine .inr ⟨6, h7, Nat.le_refl 6, fun name => ?_⟩
    cases ho : os 7 with
    | accepted => exact .inl (congrArg (·[name]?) (hacc ho).1)
    | killed => exact .inl (congrArg (·[name]?) (hkill ho).1)
    | refused n =>
      have hs := (href n ho).1
      rcases release_leaves (claimed server r 6) (after 8 os) name with h | ⟨hm, h⟩
      · exact .inl ((congrArg (·[name]?) hs).trans h)
      · exact .inr ⟨rfl, hm, (congrArg (·[name]?) hs).trans h⟩

variable {r0 r : Rules}

/-- Where no other rule carries the mark, a step leaves the other rules alone. -/
lemma Apart.leave (h0 : ∀ name, ¬Mine r0 name) (h : Apart r0 r) (step : Step) :
    Apart r0 (step.leave r) := fun name hne => by
  have hmine : ¬Mine r name := fun ⟨rule, hr, hm⟩ => h0 name ⟨rule, (h name hne) ▸ hr, hm⟩
  cases step with
  | takeOver server os =>
    rcases takeOver_leaves server os r with ⟨-, hs⟩ | ⟨k, -, -, hs⟩
    · rw [hs]
      exact h name hne
    · rcases hs name with hs | ⟨-, hm, -⟩
      · rw [hs, getElem?_claimed, if_neg hne.symm]
        exact h name hne
      · exact absurd ((mine_claimed_of_ne server r k hne.symm).mp hm) hmine
  | release os =>
    rcases release_leaves r os name with hs | ⟨hm, -⟩
    · exact hs.trans (h name hne)
    · exact absurd hm hmine

/-- A step leaves the rule of this core to be seen exactly when it is whole. -/
lemma seen_leave_iff (h : Seen r) (step : Step) : Seen (step.leave r) ↔ step.Whole r := by
  cases step with
  | takeOver server os =>
    obtain ⟨hz, hs6⟩ := lead_six os
    rcases takeOver_leaves server os r with ⟨hj, hs⟩ | ⟨k, hj, hk, hs⟩
    · rw [hs]
      exact iff_of_true h (.inl (hz.mp hj))
    · have hget : (claimed server r k)[RULE]? ≠ none := by
        rw [getElem?_claimed, if_pos rfl]
        exact nofun
      have hwhole : Step.Whole r (.takeOver server os) ↔ Mine (claimed server r k) RULE := by
        rw [mine_claimed]
        have h0 : ¬lead 6 os = 0 := fun h' => by
          have := hz.mpr h'
          omega
        have h6 : lead 6 os = 6 ↔ 5 ≤ k := by rw [← hs6]; omega
        simp only [Step.Whole, h0, h6, false_or]
      rw [hwhole]
      rcases hs RULE with hs | ⟨rfl, hm, hs⟩
      · unfold Seen Mine
        rw [hs]
        exact ⟨fun h' => h'.resolve_left hget, .inr⟩
      · exact iff_of_true (.inl hs) hm
  | release os =>
    refine iff_of_true ?_ trivial
    rcases release_leaves r os RULE with hs | ⟨-, hs⟩
    · rcases h with h | ⟨rule, hr, hm⟩
      · exact .inl (hs.trans h)
      · exact .inr ⟨rule, hs.trans hr, hm⟩
    · exact .inl hs

/-- A sweep that is not hindered gives the rules back exactly when it can see the rule of
this core. -/
lemma swept_iff_seen (h0 : ∀ name, ¬Mine r0 name) (hrule : r0[RULE]? = none) (h : Apart r0 r) :
    swept r = r0 ↔ Seen r := by
  constructor
  · intro hs
    have hget := getElem?_swept r RULE
    rw [hs, hrule] at hget
    by_cases hm : Mine r RULE
    · exact .inr hm
    · rw [if_neg hm] at hget
      exact .inl hget.symm
  · intro hs
    refine Std.ExtTreeMap.ext_getElem? fun name => ?_
    rw [getElem?_swept]
    by_cases hne : name = RULE
    · subst hne
      rw [hrule]
      rcases hs with hs | hs
      · rw [hs, ite_self]
      · rw [if_pos hs]
    · have hmine : ¬Mine r name := fun ⟨rule, hr, hm⟩ => h0 name ⟨rule, (h name hne) ▸ hr, hm⟩
      rw [if_neg hmine, h name hne]

lemma Apart.history (h0 : ∀ name, ¬Mine r0 name) (h : Apart r0 r) (steps : List Step) :
    Apart r0 (history r steps) := by
  induction steps generalizing r with
  | nil => exact h
  | cons step steps ih => exact ih (h.leave h0 step)

lemma seen_history_iff (hs : Seen r) (steps : List Step) :
    (∀ done, done <+: steps → Seen (history r done)) ↔
      ∀ done step rest, steps = done ++ step :: rest → step.Whole (history r done) := by
  induction steps generalizing r with
  | nil =>
    refine iff_of_true (fun done hd => ?_) fun done step rest he => ?_
    · rw [List.prefix_nil.mp hd]; exact hs
    · simp at he
  | cons step steps ih =>
    constructor
    · intro hall done step' rest he
      have hnext : Seen (step.leave r) := hall [step] ⟨steps, rfl⟩
      rcases done with _ | ⟨d, done⟩
      · obtain ⟨rfl, -⟩ := List.cons.inj he
        exact (seen_leave_iff hs step).mp hnext
      · obtain ⟨rfl, hr⟩ := List.cons.inj he
        exact (ih hnext).mp
          (fun done hd => hall (step :: done) ((List.prefix_cons_inj step).mpr hd)) done step' rest hr
    · intro hall done hd
      rcases List.prefix_cons_iff.mp hd with rfl | ⟨done, rfl, hp⟩
      · exact hs
      · have hnext := (seen_leave_iff hs step).mpr (hall [] step steps rfl)
        exact (ih hnext).mpr
          (fun done' step' rest he => hall (step :: done') step' rest (by rw [he]; rfl)) done hp

/-- **The sweep repairs whatever a killed core left**, at every point of a history, exactly
when none of its takeovers was cut off between creating the rule and marking it. -/
theorem sweep_repairs_iff (r0 : Rules) (h0 : ∀ name, ¬Mine r0 name) (hrule : r0[RULE]? = none)
    (steps : List Step) :
    (∀ done, done <+: steps → swept (history r0 done) = r0) ↔
      ∀ done step rest, steps = done ++ step :: rest → step.Whole (history r0 done) := by
  rw [← seen_history_iff (.inl hrule) steps]
  exact forall₂_congr fun done _ =>
    swept_iff_seen h0 hrule (Apart.history h0 (fun _ _ => rfl) done)

/-- A core killed right after it made the machine ask it: the next sweep repairs nothing. -/
theorem sweep_repairs_iff_killed :
    ¬∀ done, done <+: [Step.takeOver "127.0.0.1" fun n => if n = 5 then .killed else .accepted] →
      swept (history ∅ done) = ∅ := by
  rw [sweep_repairs_iff ∅ (fun name ⟨rule, hr, _⟩ => by simp at hr) (by simp)]
  intro h
  rcases h [] _ [] rfl with h | h | ⟨rule, hr, -⟩
  · exact absurd h (by decide)
  · exact absurd h (by decide)
  · simp [history] at hr

/-- The same, with what is left: a rule by which every name is asked of a resolver that is
no longer there. -/
theorem killed_before_the_mark :
    let r := history ∅ [.takeOver "127.0.0.1" fun n => if n = 5 then .killed else .accepted]
    swept r ≠ ∅ ∧ (swept r)[RULE]?.bind (fun rule => rule["GenericDNSServers"]?)
      = some ⟨REG_SZ, text "127.0.0.1"⟩ ∧ (runAll perform release r).1 = 0 := by
  decide +kernel

end Masqr.Names
