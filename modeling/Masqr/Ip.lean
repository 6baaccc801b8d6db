import Mathlib
import Masqr.Lib.Loop

/-!
Ones'-complement arithmetic over IP headers.
-/

namespace Masqr.Ip

open Masqr.Lib

/-- The running sum with a run of bytes added, an odd length padded on the right. -/
def Sum.add : ℕ → List UInt8 → ℕ
  | sum, hi :: lo :: rest => Sum.add (sum + (hi.toNat * 256 + lo.toNat)) rest
  | sum, [last] => sum + last.toNat * 256
  | sum, [] => sum

def carry : Loop ℕ ℕ where
  body sum := if sum / 65536 = 0 then .inr sum else .inl (sum % 65536 + sum / 65536)
  measure := id
  lowers {s s'} h := by
    split at h
    · cases h
    · cases h; simp only [id]; omega

/-- The carries folded in and the result inverted. -/
def Sum.fold (sum : ℕ) : ℕ := 65535 - carry.run sum

/-- The words of a header, the one at position `5` left out. -/
def headerWords : ℕ → List UInt8 → List (List UInt8)
  | k, hi :: lo :: rest => if k = 5 then headerWords (k + 1) rest else
      [hi, lo] :: headerWords (k + 1) rest
  | _, _ => []

/-- The IPv4 header checksum, the checksum field itself read as zero. -/
def ipv4Checksum (header : List UInt8) : ℕ :=
  Sum.fold ((headerWords 0 header).foldl Sum.add 0)

end Masqr.Ip
