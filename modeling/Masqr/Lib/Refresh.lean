import Mathlib.Logic.Function.Basic
import Mathlib.Data.Nat.Notation
import Mathlib.Tactic.TypeStar
import Mathlib.Tactic.Common

/-!
An output kept in step with inputs that change while they are read.

Parties change the inputs at any time. Whoever changed them owes a refresh: it reads the
inputs part by part, one refresh at a time, and puts an output in place. A reading fits the
inputs while none of the parts it has read has changed since.
-/

namespace Masqr.Lib

/-- How an output is derived from inputs: where a reading begins, what it reads next, and when
what it has read fits the inputs. -/
structure Refresh (I V O : Type*) where
  start : V
  read : I → V → V ⊕ O
  Fits : I → V → Prop
  Agrees : I → O → Prop
  fits_start : ∀ i, Fits i start
  fits_read : ∀ {i v v'}, Fits i v → read i v = .inl v' → Fits i v'
  agrees_read : ∀ {i v o}, Fits i v → read i v = .inr o → Agrees i o

namespace Refresh

variable {I V O : Type*}

/-- What a party is to do about the output. -/
inductive Duty (V : Type*)
  | none
  | owes
  | reads (v : V)

/-- The inputs, the output, and what each party is to do. -/
structure State (I V O : Type*) where
  inputs : I
  output : O
  duty : ℕ → Duty V

variable (r : Refresh I V O)

/-- What one party does: something that changes nothing a reading or the output is held to, a
change of the inputs, and a refresh in its parts. -/
inductive Move : State I V O → State I V O → Prop
  | rest {s : State I V O} (i : I) (hf : ∀ v, r.Fits s.inputs v → r.Fits i v)
    (ha : ∀ o, r.Agrees s.inputs o → r.Agrees i o) : Move s { s with inputs := i }
  | change {s : State I V O} {t : ℕ} (i : I) (h : ∀ v, s.duty t ≠ .reads v) :
    Move s ⟨i, s.output, Function.update s.duty t .owes⟩
  | take {s : State I V O} {t : ℕ} (h : s.duty t = .owes) (hf : ∀ u v, s.duty u ≠ .reads v) :
    Move s { s with duty := Function.update s.duty t (.reads r.start) }
  | look {s : State I V O} {t : ℕ} {v v' : V} (h : s.duty t = .reads v)
    (hr : r.read s.inputs v = .inl v') :
    Move s { s with duty := Function.update s.duty t (.reads v') }
  | put {s : State I V O} {t : ℕ} {v : V} {o : O} (h : s.duty t = .reads v)
    (hr : r.read s.inputs v = .inr o) :
    Move s ⟨s.inputs, o, Function.update s.duty t .none⟩

/-- One party reads at a time, and somebody owes a refresh, or reads what still fits, or the
output agrees. -/
structure Sound (s : State I V O) : Prop where
  alone : ∀ t u v w, s.duty t = .reads v → s.duty u = .reads w → t = u
  kept : (∃ t, s.duty t = .owes) ∨ (∃ t v, s.duty t = .reads v ∧ r.Fits s.inputs v) ∨
    ((∀ t v, s.duty t ≠ .reads v) ∧ r.Agrees s.inputs s.output)

variable {r}

lemma Sound.update {s : State I V O} (h : r.Sound s) {t : ℕ} {d : Duty V}
    (hd : (∃ v, s.duty t = .reads v) ∨ (∀ u v, s.duty u ≠ .reads v) ∨ ∀ v, d ≠ .reads v) :
    ∀ a b v w, Function.update s.duty t d a = .reads v → Function.update s.duty t d b = .reads w →
      a = b := by
  intro a b v w ha hb
  by_cases hat : a = t <;> by_cases hbt : b = t
  · rw [hat, hbt]
  · rw [hat, Function.update_self] at ha
    rw [Function.update_of_ne hbt] at hb
    rcases hd with ⟨x, hx⟩ | hn | hn
    · exact absurd (h.alone b t w x hb hx) hbt
    · exact absurd hb (hn b w)
    · exact absurd ha (hn v)
  · rw [hbt, Function.update_self] at hb
    rw [Function.update_of_ne hat] at ha
    rcases hd with ⟨x, hx⟩ | hn | hn
    · exact absurd (h.alone a t v x ha hx) hat
    · exact absurd ha (hn a v)
    · exact absurd hb (hn w)
  · rw [Function.update_of_ne hat] at ha
    rw [Function.update_of_ne hbt] at hb
    exact h.alone a b v w ha hb

/-- Who owes a refresh still does when another party moves. -/
lemma owes_of_ne {s : State I V O} {t u : ℕ} {d : Duty V} (hu : s.duty u = .owes)
    (ht : s.duty t ≠ .owes) : Function.update s.duty t d u = .owes := by
  rwa [Function.update_of_ne]
  rintro rfl
  exact ht hu

/-- **A move keeps the output refreshed or due to be.** -/
theorem Sound.move {s s' : State I V O} (h : r.Sound s) (hm : r.Move s s') : r.Sound s' := by
  cases hm with
  | rest i hf ha =>
    refine ⟨h.alone, ?_⟩
    rcases h.kept with hu | ⟨u, w, hu, hfit⟩ | ⟨hn, hagree⟩
    · exact .inl hu
    · exact .inr (.inl ⟨u, w, hu, hf w hfit⟩)
    · exact .inr (.inr ⟨hn, ha _ hagree⟩)
  | change i hn =>
    exact ⟨h.update (.inr (.inr nofun)), .inl ⟨_, Function.update_self ..⟩⟩
  | take ho hf =>
    exact ⟨h.update (.inr (.inl hf)),
      .inr (.inl ⟨_, _, Function.update_self .., r.fits_start _⟩)⟩
  | @look t v v' ht hr =>
    refine ⟨h.update (.inl ⟨v, ht⟩), ?_⟩
    rcases h.kept with ⟨u, hu⟩ | ⟨u, w, hu, hfit⟩ | ⟨hn, -⟩
    · exact .inl ⟨u, owes_of_ne hu (by rw [ht]; nofun)⟩
    · obtain rfl := h.alone t u v w ht hu
      obtain rfl : v = w := by simpa using ht.symm.trans hu
      exact .inr (.inl ⟨t, v', Function.update_self .., r.fits_read hfit hr⟩)
    · exact absurd ht (hn t v)
  | @put t v o ht hr =>
    refine ⟨h.update (.inr (.inr nofun)), ?_⟩
    rcases h.kept with ⟨u, hu⟩ | ⟨u, w, hu, hfit⟩ | ⟨hn, -⟩
    · exact .inl ⟨u, owes_of_ne hu (by rw [ht]; nofun)⟩
    · obtain rfl := h.alone t u v w ht hu
      obtain rfl : v = w := by simpa using ht.symm.trans hu
      refine .inr (.inr ⟨fun u x hx => ?_, r.agrees_read hfit hr⟩)
      dsimp only at hx
      by_cases hut : u = t
      · rw [hut, Function.update_self] at hx
        cases hx
      · rw [Function.update_of_ne hut] at hx
        exact hut (h.alone u t x v hx ht)
    · exact absurd ht (hn t v)

/-- **Once nobody has anything to do, the output agrees with the inputs.** -/
theorem Sound.agrees {s : State I V O} (h : r.Sound s) (hd : ∀ t, s.duty t = .none) :
    r.Agrees s.inputs s.output := by
  rcases h.kept with ⟨t, ht⟩ | ⟨t, v, ht, -⟩ | ⟨-, ha⟩
  · rw [hd t] at ht
    cases ht
  · rw [hd t] at ht
    cases ht
  · exact ha

lemma Sound.init {i : I} {o : O} (h : r.Agrees i o) : r.Sound ⟨i, o, fun _ => .none⟩ :=
  ⟨nofun, .inr (.inr ⟨nofun, h⟩)⟩

end Refresh

end Masqr.Lib
