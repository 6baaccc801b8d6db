import Mathlib.Data.Nat.Notation
import Mathlib.Tactic.TypeStar
import Mathlib.Tactic.SplitIfs

/-!
Programs that work through calls, any of which may be refused, and after any of which the
program may be killed.

A program is a tree of calls. What becomes of each call in turn is a stream of outcomes; a
program that is killed leaves the state as its calls so far have left it.
-/

namespace Masqr.Lib

/-- What becomes of a call. An error code is never zero, so `refused n` is the code `n + 1`. -/
inductive Outcome | accepted | refused (n : ℕ) | killed
  deriving DecidableEq

namespace Outcome

/-- The status a call answers with, zero where it is accepted. -/
def status : Outcome → ℕ
  | refused n => n + 1
  | _ => 0

/-- The outcomes after the first. -/
def later (os : ℕ → Outcome) : ℕ → Outcome := fun n => os (n + 1)

/-- The outcomes after the first `n`. -/
def after (n : ℕ) (os : ℕ → Outcome) : ℕ → Outcome := fun k => os (k + n)

lemma after_later (n : ℕ) (os : ℕ → Outcome) : after n (later os) = after (n + 1) os :=
  funext fun k => congrArg os (by omega)

/-- Every call is accepted. -/
def always : ℕ → Outcome := fun _ => .accepted

@[simp] lemma later_always : later always = always := rfl

/-- How many of the first `n` calls are accepted before one is not. -/
def lead : ℕ → (ℕ → Outcome) → ℕ
  | 0, _ => 0
  | n + 1, os => if os 0 = .accepted then lead n (later os) + 1 else 0

lemma lead_le (n : ℕ) (os : ℕ → Outcome) : lead n os ≤ n := by
  induction n generalizing os with
  | zero => exact Nat.le_refl 0
  | succ n ih =>
    unfold lead
    split_ifs
    · exact Nat.succ_le_succ (ih _)
    · exact Nat.zero_le _

lemma lead_succ_pos {n : ℕ} {os : ℕ → Outcome} (h : os 0 = .accepted) :
    lead (n + 1) os = lead n (later os) + 1 := if_pos h

lemma lead_succ_zero {n : ℕ} {os : ℕ → Outcome} (h : os 0 ≠ .accepted) : lead (n + 1) os = 0 :=
  if_neg h

/-- One call more, where all before it are accepted. -/
lemma lead_snoc (n : ℕ) (os : ℕ → Outcome) :
    lead (n + 1) os = if lead n os = n ∧ os n = .accepted then n + 1 else lead n os := by
  induction n generalizing os with
  | zero => simp [lead]
  | succ n ih =>
    by_cases h : os 0 = .accepted
    · rw [lead_succ_pos h, lead_succ_pos h, ih (later os)]
      by_cases h' : lead n (later os) = n ∧ later os n = .accepted
      · rw [if_pos h', if_pos ⟨congrArg (· + 1) h'.1, h'.2⟩]
      · rw [if_neg h', if_neg fun hc => h' ⟨Nat.succ.inj hc.1, hc.2⟩]
    · rw [lead_succ_zero h, lead_succ_zero h, if_neg fun hc => nomatch hc.1]

end Outcome

/-- A program that makes calls `C`, each with an answer of its own kind, and ends with an
`α`. -/
inductive Prog (C : Type) (A : C → Type) (α : Type) : Type
  | done (a : α)
  | call (c : C) (k : A c → Prog C A α)

namespace Prog

variable {C : Type} {A : C → Type} {α β σ : Type}

protected def bind : Prog C A α → (α → Prog C A β) → Prog C A β
  | .done a, f => f a
  | .call c k, f => .call c fun x => (k x).bind f

instance : Monad (Prog C A) where
  pure := .done
  bind := Prog.bind

/-- The program that makes one call and ends with its answer. -/
def ask (c : C) : Prog C A (A c) := .call c .done

@[simp] lemma pure_eq (a : α) : (pure a : Prog C A α) = .done a := rfl
@[simp] lemma done_bind (a : α) (f : α → Prog C A β) : (Prog.done a >>= f) = f a := rfl
@[simp] lemma call_bind (c : C) (k : A c → Prog C A α) (f : α → Prog C A β) :
    (Prog.call c k >>= f) = .call c fun x => k x >>= f := rfl
@[simp] lemma ask_bind (c : C) (f : A c → Prog C A β) : (ask c >>= f) = .call c f := rfl

instance : LawfulMonad (Prog C A) := .mk' _
  (fun p => by
    induction p with
    | done a => rfl
    | call c k ih => exact congrArg (Prog.call c) (funext ih))
  (fun _ _ => rfl)
  (fun p f g => by
    induction p with
    | done a => rfl
    | call c k ih => exact congrArg (Prog.call c) (funext ih))

/-- How a program ends: the state it leaves, the outcomes it has not used, and its value,
if it was not killed. -/
structure Ended (σ α : Type) where
  state : σ
  rest : ℕ → Outcome
  value : Option α

variable (perform : σ → (c : C) → Outcome → A c × σ)

/-- The course of a program, call by call. -/
def exec : Prog C A α → (ℕ → Outcome) → σ → Ended σ α
  | .done a, os, s => ⟨s, os, some a⟩
  | .call c k, os, s =>
    if os 0 = .killed then ⟨s, os, none⟩
    else exec (k (perform s c (os 0)).1) (Outcome.later os) (perform s c (os 0)).2

@[simp] lemma exec_done (a : α) (os : ℕ → Outcome) (s : σ) :
    exec perform (.done a) os s = ⟨s, os, some a⟩ := rfl

lemma exec_killed {os : ℕ → Outcome} (h : os 0 = .killed) (c : C) (k : A c → Prog C A α) (s : σ) :
    exec perform (.call c k) os s = ⟨s, os, none⟩ := if_pos h

lemma exec_call {os : ℕ → Outcome} (h : os 0 ≠ .killed) (c : C) (k : A c → Prog C A α) (s : σ) :
    exec perform (.call c k) os s
      = exec perform (k (perform s c (os 0)).1) (Outcome.later os) (perform s c (os 0)).2 :=
  if_neg h

/-- **Two programs in a row**: the second goes on from where the first ends, unless that was
killed. -/
theorem exec_bind (p : Prog C A α) (f : α → Prog C A β) (os : ℕ → Outcome) (s : σ) :
    exec perform (p >>= f) os s = match exec perform p os s with
      | ⟨s', os', some a⟩ => exec perform (f a) os' s'
      | ⟨s', os', none⟩ => ⟨s', os', none⟩ := by
  induction p generalizing os s with
  | done a => rfl
  | call c k ih =>
    rw [call_bind]
    by_cases h : os 0 = .killed
    · rw [exec_killed perform h, exec_killed perform h]
    · rw [exec_call perform h, exec_call perform h, ih]

/-- Two programs in a row that may fail: the second is not begun when the first has failed. -/
lemma exec_bind_try {ε : Type} (p : ExceptT ε (Prog C A) α) (f : α → ExceptT ε (Prog C A) β)
    (os : ℕ → Outcome) (s : σ) :
    exec perform (p >>= f).run os s = match exec perform p.run os s with
      | ⟨s', os', some (.ok a)⟩ => exec perform (f a).run os' s'
      | ⟨s', os', some (.error e)⟩ => ⟨s', os', some (.error e)⟩
      | ⟨s', os', none⟩ => ⟨s', os', none⟩ := by
  rw [ExceptT.run_bind, exec_bind]
  rcases exec perform p.run os s with ⟨s', os', _ | _ | a⟩ <;> rfl

/-! ### Runs in which every call is accepted -/

/-- The value and the state a program ends with when every call is accepted. -/
def runAll : Prog C A α → σ → α × σ
  | .done a, s => (a, s)
  | .call c k, s => runAll (k (perform s c .accepted).1) (perform s c .accepted).2

@[simp] lemma runAll_done (a : α) (s : σ) : runAll perform (.done a) s = (a, s) := rfl
@[simp] lemma runAll_call (c : C) (k : A c → Prog C A α) (s : σ) :
    runAll perform (.call c k) s
      = runAll perform (k (perform s c .accepted).1) (perform s c .accepted).2 := rfl

lemma runAll_bind (p : Prog C A α) (f : α → Prog C A β) (s : σ) :
    runAll perform (p >>= f) s
      = runAll perform (f (runAll perform p s).1) (runAll perform p s).2 := by
  induction p generalizing s with
  | done a => rfl
  | call c k ih => exact ih _ _

lemma exec_always (p : Prog C A α) (s : σ) : exec perform p Outcome.always s
    = ⟨(runAll perform p s).2, Outcome.always, some (runAll perform p s).1⟩ := by
  induction p generalizing s with
  | done a => rfl
  | call c k ih =>
    rw [exec_call perform (by decide)]
    exact ih _ _

/-! ### Runs in which anything may happen -/

/-- Whatever becomes of its calls, the program leaves a state, and a value if it was not
killed, that are as `Q` says. -/
def Leaves (p : Prog C A α) (s : σ) (Q : σ → Option α → Prop) : Prop :=
  ∀ os, Q (exec perform p os s).state (exec perform p os s).value

variable {perform} {s : σ} {Q : σ → Option α → Prop}

lemma leaves_done {a : α} (h : Q s (some a)) : Leaves perform (.done a) s Q := fun _ => h

lemma leaves_call {c : C} {k : A c → Prog C A α} (h0 : Q s none)
    (h : ∀ o, o ≠ .killed → Leaves perform (k (perform s c o).1) (perform s c o).2 Q) :
    Leaves perform (.call c k) s Q := fun os => by
  by_cases h' : os 0 = .killed
  · rw [exec_killed perform h']
    exact h0
  · rw [exec_call perform h']
    exact h (os 0) h' _

/-- **The rule of two programs in a row.** -/
theorem leaves_bind {p : Prog C A β} {f : β → Prog C A α} {R : σ → Option β → Prop}
    (hp : Leaves perform p s R) (hkill : ∀ s', R s' none → Q s' none)
    (hf : ∀ s' b, R s' (some b) → Leaves perform (f b) s' Q) :
    Leaves perform (p >>= f) s Q := fun os => by
  have h := hp os
  rw [exec_bind]
  generalize exec perform p os s = e at h
  obtain ⟨s', os', v⟩ := e
  cases v with
  | none => exact hkill s' h
  | some b => exact hf s' b h os'

lemma Leaves.mono {p : Prog C A α} {R : σ → Option α → Prop} (h : Leaves perform p s R)
    (hQ : ∀ s' v, R s' v → Q s' v) : Leaves perform p s Q := fun os => hQ _ _ (h os)

end Prog

end Masqr.Lib
