import Mathlib.Data.Nat.Notation
import Mathlib.Tactic.TypeStar

/-!
Loops that end because a measure goes down.

The body of a loop maps a state to the next state, or to the value the loop returns. A
loop carries the measure of its states and the proof that its body lowers it, so running
one is a total function. What is proved about a run is proved about the body.
-/

namespace Masqr.Lib

/-- A loop over states `σ` that returns a `ρ`. -/
structure Loop (σ ρ : Type*) where
  body : σ → σ ⊕ ρ
  measure : σ → ℕ
  lowers : ∀ {s s'}, body s = .inl s' → measure s' < measure s

namespace Loop

variable {σ ρ : Type*} (l : Loop σ ρ)

def go : (n : ℕ) → (s : σ) → l.measure s < n → ρ
  | 0, _, h => absurd h (Nat.not_lt_zero _)
  | n + 1, s, h =>
    match hb : l.body s with
    | .inr r => r
    | .inl s' => go n s' (Nat.lt_of_lt_of_le (l.lowers hb) (Nat.le_of_lt_succ h))

/-- The value the loop returns from `s`. -/
def run (s : σ) : ρ := l.go (l.measure s + 1) s (Nat.lt_succ_self _)

lemma go_rule (R : σ → ρ → Prop) (hstop : ∀ s r, l.body s = .inr r → R s r)
    (hstep : ∀ s s' r, l.body s = .inl s' → R s' r → R s r) :
    ∀ n s h, R s (l.go n s h)
  | n + 1, s, h => by
    unfold go
    split
    · next r hb => exact hstop s r hb
    · next s' hb => exact hstep s s' _ hb (go_rule R hstop hstep n s' _)

/-- **The rule of loops**: a relation of a state to the value returned that holds where
the body stops, and that the body hands back, holds of every run. -/
theorem run_rule (R : σ → ρ → Prop) (hstop : ∀ s r, l.body s = .inr r → R s r)
    (hstep : ∀ s s' r, l.body s = .inl s' → R s' r → R s r) (s : σ) : R s (l.run s) :=
  l.go_rule R hstop hstep _ s _

/-- **The invariant rule**: what the body keeps holds where the loop stops. -/
theorem run_inv (I : σ → Prop) (Q : ρ → Prop) (hstop : ∀ s r, I s → l.body s = .inr r → Q r)
    (hstep : ∀ s s', I s → l.body s = .inl s' → I s') {s : σ} (hs : I s) : Q (l.run s) :=
  l.run_rule (fun s r => I s → Q r) (fun s r hb hi => hstop s r hi hb)
    (fun s s' _ hb ih hi => ih (hstep s s' hi hb)) s hs

lemma go_eq (n m : ℕ) (s : σ) (hn : l.measure s < n) (hm : l.measure s < m) :
    l.go n s hn = l.go m s hm := by
  induction n generalizing m s with
  | zero => exact absurd hn (Nat.not_lt_zero _)
  | succ n ih =>
    obtain _ | m := m
    · exact absurd hm (Nat.not_lt_zero _)
    · unfold go
      split
      · rfl
      · exact ih _ _ _ _

lemma run_stop {s : σ} {r : ρ} (hb : l.body s = .inr r) : l.run s = r := by
  unfold run go
  split <;> simp_all

lemma run_step {s s' : σ} (hb : l.body s = .inl s') : l.run s = l.run s' := by
  unfold run
  rw [go]
  split
  · simp_all
  · next s'' hb' =>
    obtain rfl : s' = s'' := by simpa using hb.symm.trans hb'
    exact l.go_eq _ _ _ _ _

/-- **Two loops in step**: where an invariant holds and is kept, a loop whose body does what
another's does returns what the other does. -/
theorem run_map {ρ' : Type*} (l' : Loop σ ρ') (I : σ → Prop) (f : ρ → ρ')
    (hstop : ∀ s r, I s → l.body s = .inr r → l'.body s = .inr (f r))
    (hstep : ∀ s s', I s → l.body s = .inl s' → l'.body s = .inl s' ∧ I s') {s : σ} (hs : I s) :
    l'.run s = f (l.run s) := by
  refine l.run_rule (fun s r => I s → l'.run s = f r) (fun s r hb hi => ?_)
    (fun s s' r hb ih hi => ?_) s hs
  · exact l'.run_stop (hstop s r hi hb)
  · obtain ⟨hb', hi'⟩ := hstep s s' hi hb
    rw [l'.run_step hb', ih hi']

/-- The state a loop is in after so many turns. -/
inductive Turns (s : σ) : ℕ → σ → Prop
  | start : Turns s 0 s
  | turn {n t t'} : Turns s n t → l.body t = .inl t' → Turns s (n + 1) t'

variable {l} in
lemma Turns.after {s s' t : σ} {n : ℕ} (hb : l.body s = .inl s') (h : l.Turns s' n t) :
    l.Turns s (n + 1) t := by
  induction h with
  | start => exact .turn .start hb
  | turn _ hb' ih => exact .turn ih hb'

variable {l} in
/-- What the body keeps holds of every state the loop comes to. -/
lemma Turns.inv {I : σ → Prop} (hstep : ∀ s s', I s → l.body s = .inl s' → I s') {s t : σ} {n : ℕ}
    (hs : I s) (h : l.Turns s n t) : I t := by
  induction h with
  | start => exact hs
  | turn _ hb ih => exact hstep _ _ ih hb

/-- **A loop ends**: in no more turns than its measure it comes to where its body stops, and what
the body stops with is what the loop returns. -/
theorem run_ends (s : σ) :
    ∃ n t, n ≤ l.measure s ∧ l.Turns s n t ∧ l.body t = .inr (l.run s) := by
  refine l.run_rule (fun s r => ∃ n t, n ≤ l.measure s ∧ l.Turns s n t ∧ l.body t = .inr r)
    (fun s r hb => ⟨0, s, Nat.zero_le _, .start, hb⟩) (fun s s' r hb ih => ?_) s
  obtain ⟨n, t, hn, hturns, hstop⟩ := ih
  have hlower := l.lowers hb
  exact ⟨n + 1, t, by omega, hturns.after hb, hstop⟩

end Loop

end Masqr.Lib
