import Mathlib
import Masqr.Core.State

/-!
Which carrier a tunnel rides, and when HTTP/3 is left alone.
-/

namespace Masqr.Transport

/-- What a run asks for. -/
inductive Choice | auto | h3 | h2
  deriving DecidableEq

/-- How the ClientHello is presented. -/
inductive Handshake | named | noSni | split | splitSlow | fronted
  deriving DecidableEq

/-- Whether a strategy means anything over QUIC. -/
def Handshake.worksOverQuic : Handshake → Bool
  | split | splitSlow => false
  | _ => true

/-- How long HTTP/3 is left alone after it failed. -/
def PARK_FOR : Duration := .secs 600

/-- When HTTP/3 may be tried again, if it is parked. -/
structure Parking where
  until? : Option Instant
  deriving DecidableEq

namespace Parking

def park (now : Instant) : Parking := ⟨some (now + PARK_FOR)⟩

def unpark : Parking := ⟨none⟩

def parked (p : Parking) (now : Instant) : Bool := p.until?.any fun due => decide (now < due)

@[simp] lemma parked_unpark (now : Instant) : unpark.parked now = false := rfl

/-- Parking that has run out does not come back by itself. -/
lemma parked_of_later {p : Parking} {now later : Instant} (hle : now ≤ later)
    (h : p.parked later = true) : p.parked now = true := by
  cases hp : p.until? with
  | none => simp [parked, hp] at h
  | some due =>
    rw [parked, hp, Option.any_some, decide_eq_true_eq] at h ⊢
    exact Nat.lt_of_le_of_lt hle h

end Parking

/-- What one attempt tries, in order. -/
inductive Plan
  | only (carrier : Carrier)
  | h3ThenH2
  deriving DecidableEq

def plan (choice : Choice) (handshake : Handshake) (parked : Bool) : Plan :=
  if !handshake.worksOverQuic then .only .h2
  else
    match choice, parked with
    | .h2, _ => .only .h2
    | .h3, _ => .only .h3
    | .auto, true => .only .h2
    | .auto, false => .h3ThenH2

end Masqr.Transport
