import Mathlib.Algebra.Group.Basic
import Mathlib.Data.UInt

/-!
The status codes of HTTP. The library that has them is not part of this repository: it is taken by
what it documents.
-/

namespace Masqr

/-- What is made of statuses: which bytes write one, and the classes they are of. A status is
written in three digits, the first of them not zero. -/
class StatusCode where
  fromBytes : List UInt8 → Option ℕ
  isInformational : ℕ → Bool
  isSuccess : ℕ → Bool
  isClientError : ℕ → Bool
  fromBytes_iff {bytes : List UInt8} {status : ℕ} : fromBytes bytes = some status ↔
    100 ≤ status ∧ status < 1000 ∧ bytes = [UInt8.ofNat (48 + status / 100),
      UInt8.ofNat (48 + status / 10 % 10), UInt8.ofNat (48 + status % 10)]
  isInformational_iff {status : ℕ} : isInformational status = true ↔ 100 ≤ status ∧ status < 200
  isSuccess_iff {status : ℕ} : isSuccess status = true ↔ 200 ≤ status ∧ status < 300
  isClientError_iff {status : ℕ} : isClientError status = true ↔ 400 ≤ status ∧ status < 500

namespace StatusCode

/-- Three digits, the first of them not zero. -/
def threeDigits : List UInt8 → Option ℕ
  | [a, b, c] =>
    let a := (a - 48).toNat
    let b := (b - 48).toNat
    let c := (c - 48).toNat
    if a = 0 ∨ 9 < a ∨ 9 < b ∨ 9 < c then none else some (a * 100 + b * 10 + c)
  | _ => none

lemma threeDigits_iff {bytes : List UInt8} {status : ℕ} : threeDigits bytes = some status ↔
    100 ≤ status ∧ status < 1000 ∧ bytes = [UInt8.ofNat (48 + status / 100),
      UInt8.ofNat (48 + status / 10 % 10), UInt8.ofNat (48 + status % 10)] := by
  have hdigit : ∀ d < 10, (UInt8.ofNat (48 + d) - 48).toNat = d := by decide
  have hbyte (a : UInt8) : UInt8.ofNat (48 + (a - 48).toNat) = a := by
    rw [UInt8.ofNat_add, UInt8.ofNat_toNat]
    exact add_sub_cancel 48 a
  constructor
  · intro h
    match bytes with
    | [a, b, c] =>
      simp only [threeDigits] at h
      split at h
      · cases h
      · next hgood =>
        cases h
        have ha := hbyte a
        have hb := hbyte b
        have hc := hbyte c
        refine ⟨by omega, by omega, ?_⟩
        rw [(by omega : ((a - 48).toNat * 100 + (b - 48).toNat * 10 + (c - 48).toNat) / 100 =
            (a - 48).toNat),
          (by omega : ((a - 48).toNat * 100 + (b - 48).toNat * 10 + (c - 48).toNat) / 10 % 10 =
            (b - 48).toNat),
          (by omega : ((a - 48).toNat * 100 + (b - 48).toNat * 10 + (c - 48).toNat) % 10 =
            (c - 48).toNat), ha, hb, hc]
    | [] => cases h
    | [_] => cases h
    | [_, _] => cases h
    | _ :: _ :: _ :: _ :: _ => cases h
  · rintro ⟨hlow, hhigh, rfl⟩
    simp only [threeDigits, hdigit _ (by omega : status / 100 < 10),
      hdigit _ (Nat.mod_lt _ (by decide : 0 < 10))]
    rw [if_neg (by omega)]
    exact congrArg some (by omega)

/-- The statuses as they are documented. -/
abbrev documented : StatusCode where
  fromBytes := threeDigits
  isInformational status := decide (100 ≤ status ∧ status < 200)
  isSuccess status := decide (200 ≤ status ∧ status < 300)
  isClientError status := decide (400 ≤ status ∧ status < 500)
  fromBytes_iff := threeDigits_iff
  isInformational_iff := decide_eq_true_iff
  isSuccess_iff := decide_eq_true_iff
  isClientError_iff := decide_eq_true_iff

end StatusCode

end Masqr
