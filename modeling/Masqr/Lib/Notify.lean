import Mathlib.Logic.Basic

/-!
A notification with room for one permit, and one task that waits for it.

A permit given while nobody waits is kept, and a second is the same as one. One that is given to the
task that waits is the task's, and comes back if the task goes away before it has run again.
-/

namespace Masqr.Lib

/-- Where the task that waits is: not here, on the list, or woken and yet to run. -/
inductive Waiter | away | enrolled | woken
  deriving DecidableEq

structure Notify where
  permit : Bool
  waiter : Waiter
  deriving DecidableEq

namespace Notify

def new : Notify := ⟨false, .away⟩

def notifyOne (n : Notify) : Notify :=
  if n.waiter = .enrolled then { n with waiter := .woken } else { n with permit := true }

/-- The first poll of a wait: it takes the permit, or goes on the list. -/
def poll (n : Notify) : Bool × Notify :=
  if n.permit then (true, ⟨false, .away⟩) else (false, { n with waiter := .enrolled })

/-- The task that was woken runs again. -/
def resume (n : Notify) : Notify := { n with waiter := .away }

/-- The wait is given up. -/
def drop (n : Notify) : Notify :=
  if n.waiter = .woken then ⟨true, .away⟩ else { n with waiter := .away }

/-- A task that goes to wait, or waits, is sure to run again. -/
def Available (n : Notify) : Prop :=
  n.waiter = .woken ∨ (n.waiter = .away ∧ n.permit = true)

lemma available_notifyOne (n : Notify) : n.notifyOne.Available := by
  unfold notifyOne Available
  obtain ⟨permit, waiter⟩ := n
  cases waiter with
  | away => exact .inr ⟨rfl, rfl⟩
  | enrolled => exact .inl rfl
  | woken => exact .inl rfl

lemma waiter_notifyOne (n : Notify) : n.notifyOne.waiter = .away ↔ n.waiter = .away := by
  unfold notifyOne
  obtain ⟨permit, waiter⟩ := n
  cases waiter <;> simp

lemma waiter_poll (n : Notify) : n.poll.2.waiter = if n.poll.1 then .away else .enrolled := by
  unfold poll
  cases n.permit <;> rfl

/-- A task that finds no permit where there was a wake-up was away for none. -/
lemma not_available_of_poll {n : Notify} (hn : n.waiter = .away) (h : n.poll.1 = false) :
    ¬n.Available := by
  unfold poll at h
  rintro (hwoken | ⟨-, hpermit⟩)
  · rw [hn] at hwoken
    cases hwoken
  · rw [if_pos hpermit] at h
    cases h

end Notify

end Masqr.Lib
