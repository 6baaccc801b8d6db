import Mathlib.Data.List.Pairwise
import Mathlib.Data.Nat.Notation
import Mathlib.Order.Defs.LinearOrder
import Mathlib.Tactic.TypeStar

/-!
Futures by the moments at which they are ready, and the timers that end a wait for one.

A future is asked at some moment and is ready later, or never. A timer fires no earlier than it is
due, and may be late. What bounds the parts of a computation bounds the whole of it. A computation
that does things on its way has done, when a timer cuts it short, what it did until then.
-/

namespace Masqr.Lib

/-- A future, by the moment it is first polled: when it is ready and with what, or that it never
is. It is not ready before it is asked. -/
structure Future (α : Type) where
  ready : ℕ → Option (ℕ × α)
  later : ∀ {t t' a}, ready t = some (t', a) → t ≤ t'

namespace Future

variable {α β : Type}

instance : Monad Future where
  pure a :=
    { ready := fun t => some (t, a)
      later := fun h => by
        cases h
        exact Nat.le_refl _ }
  bind f g :=
    { ready := fun t => (f.ready t).bind fun r => (g r.2).ready r.1
      later := fun h => by
        obtain ⟨r, hf, hg⟩ := Option.bind_eq_some_iff.1 h
        exact Nat.le_trans (f.later hf) ((g r.2).later hg) }

/-- The moment it is. -/
def now : Future ℕ where
  ready t := some (t, t)
  later h := by
    cases h
    exact Nat.le_refl _

def never : Future α where
  ready _ := none
  later h := by cases h

/-- Ready so long after it is asked. -/
def after (n : ℕ) (a : α) : Future α where
  ready t := some (t + n, a)
  later h := by
    cases h
    exact Nat.le_add_right _ n

lemma pure_eq {a b : α} {t t' : ℕ} :
    (pure a : Future α).ready t = some (t', b) ↔ t' = t ∧ b = a := by
  change some (t, a) = some (t', b) ↔ _
  rw [Option.some_inj, Prod.mk.injEq, eq_comm, @eq_comm _ b]

lemma bind_eq {f : Future α} {g : α → Future β} {t t' : ℕ} {b : β} :
    (f >>= g).ready t = some (t', b) ↔
      ∃ t₁ a, f.ready t = some (t₁, a) ∧ (g a).ready t₁ = some (t', b) := by
  change (f.ready t).bind _ = _ ↔ _
  rw [Option.bind_eq_some_iff]
  exact Prod.exists

/-- Whenever it is asked, it is ready after so long at the most. -/
def Ends (f : Future α) (n : ℕ) : Prop := ∀ t, ∃ t' a, f.ready t = some (t', a) ∧ t' ≤ t + n

lemma Ends.pure (a : α) : Ends (Pure.pure a : Future α) 0 := fun t => ⟨t, a, rfl, Nat.le_refl t⟩

lemma Ends.mono {f : Future α} {n m : ℕ} (h : Ends f n) (hle : n ≤ m) : Ends f m := fun t => by
  obtain ⟨t', a, hf, hready⟩ := h t
  exact ⟨t', a, hf, by omega⟩

lemma Ends.bind {f : Future α} {g : α → Future β} {n m : ℕ} (hf : Ends f n)
    (hg : ∀ a, Ends (g a) m) : Ends (f >>= g) (n + m) := fun t => by
  obtain ⟨t₁, a, hft, hfirst⟩ := hf t
  obtain ⟨t₂, b, hgt, hsecond⟩ := hg a t₁
  exact ⟨t₂, b, bind_eq.2 ⟨t₁, a, hft, hgt⟩, by omega⟩

/-- What takes no time of its own adds none. -/
lemma Ends.next {f : Future α} {g : α → Future β} {n : ℕ} (hf : Ends f n)
    (hg : ∀ a, Ends (g a) 0) : Ends (f >>= g) n := hf.bind hg

end Future

/-! ### Futures that may fail -/

/-- A future that is ready with a value or a problem. -/
abbrev Attempt (ε : Type) := ExceptT ε Future

namespace Attempt

variable {ε α β : Type}

def now : Attempt ε ℕ := ExceptT.lift Future.now

lemma bind_run (x : Attempt ε α) (f : α → Attempt ε β) : ExceptT.run (x >>= f) =
    (x.run >>= fun r => match r with
      | .ok a => (f a).run
      | .error e => pure (.error e) : Future (Except ε β)) := rfl

lemma bind_ok {x : Attempt ε α} {f : α → Attempt ε β} {t t' : ℕ} {b : β} :
    (x >>= f).run.ready t = some (t', .ok b) ↔
      ∃ t₁ a, x.run.ready t = some (t₁, .ok a) ∧ (f a).run.ready t₁ = some (t', .ok b) := by
  rw [bind_run, Future.bind_eq]
  constructor
  · rintro ⟨t₁, _ | a, hx, hf⟩
    · cases hf
    · exact ⟨t₁, a, hx, hf⟩
  · rintro ⟨t₁, a, hx, hf⟩
    exact ⟨t₁, .ok a, hx, hf⟩

lemma bind_error {x : Attempt ε α} {f : α → Attempt ε β} {t t' : ℕ} {e : ε} :
    (x >>= f).run.ready t = some (t', .error e) ↔ x.run.ready t = some (t', .error e) ∨
      ∃ t₁ a, x.run.ready t = some (t₁, .ok a) ∧ (f a).run.ready t₁ = some (t', .error e) := by
  rw [bind_run, Future.bind_eq]
  constructor
  · rintro ⟨t₁, e' | a, hx, hf⟩
    · cases hf
      exact .inl hx
    · exact .inr ⟨t₁, a, hx, hf⟩
  · rintro (hx | ⟨t₁, a, hx, hf⟩)
    · exact ⟨t', .error e, hx, rfl⟩
    · exact ⟨t₁, .ok a, hx, hf⟩

lemma map_eq {x : Attempt ε α} {f : α → β} {t t' : ℕ} {r : Except ε β} :
    (f <$> x).run.ready t = some (t', r) ↔ ∃ r', x.run.ready t = some (t', r') ∧ r = r'.map f := by
  have hrun : (f <$> x).run = (x.run >>= fun r => match r with
      | .ok a => pure (.ok (f a))
      | .error e => pure (.error e) : Future (Except ε β)) := rfl
  rw [hrun, Future.bind_eq]
  constructor
  · rintro ⟨t₁, e | a, hx, hf⟩ <;> obtain ⟨rfl, rfl⟩ := Future.pure_eq.1 hf
    · exact ⟨.error e, hx, rfl⟩
    · exact ⟨.ok a, hx, rfl⟩
  · rintro ⟨e | a, hx, rfl⟩
    · exact ⟨t', .error e, hx, rfl⟩
    · exact ⟨t', .ok a, hx, rfl⟩

lemma ends_bind {x : Attempt ε α} {f : α → Attempt ε β} {n m : ℕ} (hx : x.run.Ends n)
    (hf : ∀ a, (f a).run.Ends m) : (x >>= f).run.Ends (n + m) := by
  rw [bind_run]
  refine hx.bind fun r => ?_
  cases r with
  | ok a => exact hf a
  | error e => exact (Future.Ends.pure _).mono (Nat.zero_le m)

lemma ends_pure (a : α) : (pure a : Attempt ε α).run.Ends 0 := Future.Ends.pure _

lemma ends_throw (e : ε) : (throw e : Attempt ε α).run.Ends 0 := Future.Ends.pure _

/-- Whatever it fails with is like this. -/
def Fails (x : Attempt ε α) (P : ε → Prop) : Prop :=
  ∀ t t' e, x.run.ready t = some (t', .error e) → P e

lemma Fails.bind {P : ε → Prop} {x : Attempt ε α} {f : α → Attempt ε β} (hx : x.Fails P)
    (hf : ∀ {t t' a}, x.run.ready t = some (t', .ok a) → (f a).Fails P) : (x >>= f).Fails P := by
  intro t t' e h
  rcases bind_error.1 h with h | ⟨t₁, a, ha, h⟩
  · exact hx t t' e h
  · exact hf ha t₁ t' e h

lemma fails_pure {P : ε → Prop} (a : α) : (pure a : Attempt ε α).Fails P := fun _ _ _ h => by
  cases h

lemma fails_throw {P : ε → Prop} {e : ε} (he : P e) : (throw e : Attempt ε α).Fails P := by
  intro _ _ _ h
  cases h
  exact he

lemma fails_now {P : ε → Prop} : (now : Attempt ε ℕ).Fails P := fun _ _ _ h => by cases h

lemma ends_now : (now : Attempt ε ℕ).run.Ends 0 := fun t => ⟨t, .ok t, rfl, Nat.le_refl t⟩

end Attempt

/-! ### What is done on the way -/

/-- A future that does things on its way, each at its moment: they come in order, and it is ready
after them. -/
structure Doing (ω α : Type) where
  run : ℕ → List (ℕ × ω) × Option (ℕ × α)
  ordered : ∀ t, (t :: ((run t).1.map Prod.fst ++ (run t).2.toList.map Prod.fst)).Pairwise (· ≤ ·)

namespace Doing

variable {ω α β : Type}

lemma pairwise_trans {before after : List ℕ} {t : ℕ} (hbefore : (before ++ [t]).Pairwise (· ≤ ·))
    (hafter : (t :: after).Pairwise (· ≤ ·)) : (before ++ after).Pairwise (· ≤ ·) := by
  rw [List.pairwise_append] at hbefore ⊢
  rw [List.pairwise_cons] at hafter
  refine ⟨hbefore.1, hafter.2, fun a ha b hb => ?_⟩
  exact Nat.le_trans (hbefore.2.2 a ha t (List.mem_singleton_self t)) (hafter.1 b hb)

/-- Something done now. -/
def act (what : ω) : Doing ω Unit where
  run t := ([(t, what)], some (t, ()))
  ordered t := by simp

/-- A future that does nothing on its way. -/
def lift (f : Future α) : Doing ω α where
  run t := ([], f.ready t)
  ordered t := by
    cases h : f.ready t with
    | none => simp
    | some r => simpa using f.later h

instance : Monad (Doing ω) where
  pure a := lift (pure a)
  bind f g :=
    { run := fun t => match f.run t with
        | (acts, none) => (acts, none)
        | (acts, some (t₁, a)) => (acts ++ ((g a).run t₁).1, ((g a).run t₁).2)
      ordered := fun t => by
        have hf := f.ordered t
        split
        · next acts hrun =>
          rw [hrun] at hf
          exact hf
        · next acts t₁ a hrun =>
          rw [hrun] at hf
          have hacts : ((t :: acts.map Prod.fst) ++ [t₁]).Pairwise (· ≤ ·) := hf
          have hall := pairwise_trans hacts ((g a).ordered t₁)
          simpa using hall }

end Doing

/-! ### Timers -/

/-- How late the timers fire, by when they are due. -/
structure Clock where
  late : ℕ → ℕ

namespace Clock

variable {ω α : Type} (c : Clock)

/-- When a timer fires. -/
def fires (due : ℕ) : ℕ := due + c.late due

/-- No timer is later than this. -/
def Keeps (slack : ℕ) : Prop := ∀ due, c.late due ≤ slack

lemma le_fires (due : ℕ) : due ≤ c.fires due := Nat.le_add_right due _

/-- What a wait that a timer ends comes to; at the same moment the future comes first. -/
def outcome (due : ℕ) (ready : Option (ℕ × α)) : ℕ × Option α :=
  match ready with
  | some (done, a) => if done ≤ c.fires due then (done, some a) else (c.fires due, none)
  | none => (c.fires due, none)

/-- A future waited for until a timer fires. -/
def timeout (limit : ℕ) (f : Future α) : Future (Option α) where
  ready t := some (c.outcome (t + limit) (f.ready t))
  later {t t' a} h := by
    have hdue : t ≤ c.fires (t + limit) := Nat.le_trans (Nat.le_add_right t limit) (c.le_fires _)
    rw [Option.some_inj] at h
    unfold outcome at h
    split at h
    · next done a hf =>
      split at h
      · cases h
        exact f.later hf
      · cases h
        exact hdue
    · cases h
      exact hdue

/-- The same of what does things on its way: those are done that come before the timer. -/
def within (limit : ℕ) (f : Doing ω α) (t : ℕ) : List (ℕ × ω) × ℕ × Option α :=
  ((f.run t).1.filter fun act => act.1 ≤ c.fires (t + limit), c.outcome (t + limit) (f.run t).2)

variable {c}

lemma fires_le {slack : ℕ} (hc : c.Keeps slack) (due : ℕ) : c.fires due ≤ due + slack :=
  Nat.add_le_add_left (hc due) due

lemma outcome_le (due : ℕ) (ready : Option (ℕ × α)) :
    (c.outcome due ready).1 ≤ c.fires due := by
  unfold outcome
  split
  · split
    · assumption
    · exact Nat.le_refl _
  · exact Nat.le_refl _

/-- **A wait with a timer ends.** -/
lemma timeout_ends {slack : ℕ} (hc : c.Keeps slack) (limit : ℕ) (f : Future α) :
    (c.timeout limit f).Ends (limit + slack) := fun t => by
  refine ⟨_, _, rfl, Nat.le_trans (outcome_le _ _) ?_⟩
  rw [← Nat.add_assoc]
  exact fires_le hc (t + limit)

lemma outcome_some {due t' : ℕ} {ready : Option (ℕ × α)} {a : α} :
    c.outcome due ready = (t', some a) ↔ ready = some (t', a) ∧ t' ≤ c.fires due := by
  unfold outcome
  split
  · next done a' =>
    split
    · next hdone =>
      rw [Prod.mk.injEq, Option.some_inj, Option.some_inj, Prod.mk.injEq]
      exact ⟨fun h => ⟨h, h.1 ▸ hdone⟩, fun h => h.1⟩
    · next hdone =>
      refine iff_of_false (fun h => by cases h) ?_
      rintro ⟨h, hle⟩
      cases h
      exact hdone hle
  · exact iff_of_false (fun h => by cases h) fun h => by cases h.1

lemma outcome_none {due t' : ℕ} {ready : Option (ℕ × α)} :
    c.outcome due ready = (t', none) ↔
      t' = c.fires due ∧ ∀ done a, ready = some (done, a) → c.fires due < done := by
  unfold outcome
  split
  · next done a' =>
    split
    · next hdone =>
      refine iff_of_false (fun h => by cases h) fun h => ?_
      exact absurd (h.2 done a' rfl) (Nat.not_lt.2 hdone)
    · next hdone =>
      rw [Prod.mk.injEq, eq_comm]
      refine ⟨fun h => ⟨h.1, fun done' a h' => ?_⟩, fun h => ⟨h.1, rfl⟩⟩
      cases h'
      exact Nat.lt_of_not_le hdone
  · rw [Prod.mk.injEq, eq_comm]
    exact ⟨fun h => ⟨h.1, fun done a h' => by cases h'⟩, fun h => ⟨h.1, rfl⟩⟩

lemma timeout_some {limit t t' : ℕ} {f : Future α} {a : α}
    (h : (c.timeout limit f).ready t = some (t', some a)) : f.ready t = some (t', a) :=
  (outcome_some.1 (Option.some.inj h)).1

end Clock

end Masqr.Lib
