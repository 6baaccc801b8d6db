import Mathlib

/-!
Functions that may stop short: on an overflow or an index out of range, or by refusing an input.
-/

namespace Masqr.Lib

/-- Why a function stopped short. -/
inductive Fault (ε : Type*)
  | panic
  | refused (problem : ε)
  deriving DecidableEq

universe u v

variable {ε : Type u} {α β : Type v}

/-- The function came to an end of its own, one way or the other. -/
def Safe (x : Except (Fault ε) α) : Prop := x ≠ .error .panic

lemma safe_ok (a : α) : Safe (.ok a : Except (Fault ε) α) := nofun

lemma safe_refused (problem : ε) : Safe (.error (.refused problem) : Except (Fault ε) α) := by
  unfold Safe
  simp

lemma Safe.bind {x : Except (Fault ε) α} {f : α → Except (Fault ε) β} (hx : Safe x)
    (hf : ∀ a, x = .ok a → Safe (f a)) : Safe (x >>= f) := by
  cases x with
  | ok a => exact hf a rfl
  | error fault => exact fun h => hx (by cases h; rfl)

lemma bind_eq_ok {x : Except ε α} {f : α → Except ε β} {b : β} :
    (x >>= f) = .ok b ↔ ∃ a, x = .ok a ∧ f a = .ok b := by
  cases x <;> simp [bind, Except.bind]

lemma ok_bind (a : α) (f : α → Except ε β) : ((.ok a : Except ε α) >>= f) = f a := rfl

/-- The same outcome, the problem told in other words. -/
def Fault.mapError {ε' : Type*} (f : ε → ε') : Except (Fault ε) α → Except (Fault ε') α
  | .ok a => .ok a
  | .error .panic => .error .panic
  | .error (.refused problem) => .error (.refused (f problem))

lemma Fault.mapError_eq_ok {ε' : Type*} {f : ε → ε'} {x : Except (Fault ε) α} {a : α} :
    Fault.mapError f x = .ok a ↔ x = .ok a := by
  rcases x with (_ | _) | _ <;> simp [Fault.mapError]

lemma Safe.mapError {ε' : Type*} {f : ε → ε'} {x : Except (Fault ε) α} (h : Safe x) :
    Safe (Fault.mapError f x) := by
  rcases x with (_ | problem) | a
  · exact absurd rfl h
  · exact safe_refused (f problem)
  · exact safe_ok a

/-- The outcome of a function that may only refuse. -/
def refusing : Except ε α → Except (Fault ε) α
  | .ok a => .ok a
  | .error problem => .error (.refused problem)

lemma safe_refusing (x : Except ε α) : Safe (refusing x) := by
  cases x with
  | ok a => exact safe_ok a
  | error problem => exact safe_refused problem

lemma refusing_bind (x : Except ε α) (f : α → Except ε β) :
    refusing (x >>= f) = refusing x >>= fun a => refusing (f a) := by
  cases x <;> rfl

lemma refusing_eq_ok {x : Except ε α} {a : α} : refusing x = .ok a ↔ x = .ok a := by
  cases x <;> simp [refusing]

end Masqr.Lib
