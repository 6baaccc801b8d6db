import Mathlib.Data.Nat.Notation

/-!
Moments and spans of time, in whole nanoseconds.
-/

namespace Masqr

/-- A moment, counted from a fixed one. -/
abbrev Instant := ℕ

/-- A span of time. -/
abbrev Duration := ℕ

namespace Duration

def millis (n : ℕ) : Duration := n * 1000000
def secs (n : ℕ) : Duration := n * 1000000000
def asMillis (d : Duration) : ℕ := d / 1000000

/-- The longest span there is: 64 bits of seconds, and all but a nanosecond of one more. -/
def MAX : Duration := secs 0x10000000000000000 - 1

/-- A span that is not too long; at a longer one the program stops. -/
def fits (n : ℕ) : Option Duration := if n ≤ MAX then some n else none

def times (d : Duration) (n : ℕ) : Option Duration := fits (d * n)
def plus (d e : Duration) : Option Duration := fits (d + e)

end Duration

/-- The span from `earlier` to `now`, zero when `now` comes first. -/
def Instant.since (now earlier : Instant) : Duration := now - earlier

end Masqr
