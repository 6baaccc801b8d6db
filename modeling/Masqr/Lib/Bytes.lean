import Mathlib

/-!
Numbers as runs of bytes, the first byte the greatest.
-/

namespace Masqr.Lib

/-- The last so many bytes of a number. -/
def toBe : ℕ → ℕ → List UInt8
  | 0, _ => []
  | width + 1, n => UInt8.ofNat (n / 256 ^ width) :: toBe width n

/-- The number that bytes spell after those that spelled `n`. -/
def ofBe (n : ℕ) (bytes : List UInt8) : ℕ := bytes.foldl (fun n b => n * 256 + b.toNat) n

@[simp] lemma length_toBe (width n : ℕ) : (toBe width n).length = width := by
  induction width with
  | zero => rfl
  | succ width ih => simp [toBe, ih]

@[simp] lemma ofBe_nil (n : ℕ) : ofBe n [] = n := rfl

@[simp] lemma ofBe_cons (n : ℕ) (b : UInt8) (bytes : List UInt8) :
    ofBe n (b :: bytes) = ofBe (n * 256 + b.toNat) bytes := rfl

/-- **Bytes written are the bytes read**: what `width` bytes of `n` spell is `n` without what
does not fit them. -/
theorem ofBe_toBe (width acc n : ℕ) :
    ofBe acc (toBe width n) = acc * 256 ^ width + n % 256 ^ width := by
  induction width generalizing acc with
  | zero => simp [toBe, Nat.mod_one]
  | succ width ih =>
    have hbyte : (UInt8.ofNat (n / 256 ^ width)).toNat = n / 256 ^ width % 256 := by
      rw [UInt8.toNat_ofNat']
    have hsplit : n % (256 ^ width * 256) = n / 256 ^ width % 256 * 256 ^ width + n % 256 ^ width := by
      rw [Nat.mod_mul]
      ring
    rw [toBe, ofBe_cons, ih, hbyte, pow_succ 256 width, hsplit]
    ring

/-- What stands before bytes counts by their number. -/
lemma ofBe_add (bytes : List UInt8) (a b : ℕ) :
    ofBe (a + b) bytes = a * 256 ^ bytes.length + ofBe b bytes := by
  induction bytes generalizing a b with
  | nil => simp
  | cons byte bytes ih =>
    have hstep : (a + b) * 256 + byte.toNat = a * 256 + (b * 256 + byte.toNat) := by ring
    rw [ofBe_cons, ofBe_cons, hstep, ih, List.length_cons, pow_succ]
    ring

lemma ofBe_lt (bytes : List UInt8) (n : ℕ) : ofBe n bytes < (n + 1) * 256 ^ bytes.length := by
  induction bytes generalizing n with
  | nil => simp
  | cons b bytes ih =>
    have hb : b.toNat < 256 := b.toNat_lt
    calc ofBe n (b :: bytes) < (n * 256 + b.toNat + 1) * 256 ^ bytes.length := ih _
      _ ≤ ((n + 1) * 256) * 256 ^ bytes.length := Nat.mul_le_mul_right _ (by omega)
      _ = (n + 1) * 256 ^ (b :: bytes).length := by rw [List.length_cons, Nat.pow_succ]; ring

lemma le_ofBe (bytes : List UInt8) (n : ℕ) : n * 256 ^ bytes.length ≤ ofBe n bytes := by
  induction bytes generalizing n with
  | nil => simp
  | cons b bytes ih =>
    calc n * 256 ^ (b :: bytes).length = n * 256 * 256 ^ bytes.length := by
          rw [List.length_cons, Nat.pow_succ]; ring
      _ ≤ (n * 256 + b.toNat) * 256 ^ bytes.length := Nat.mul_le_mul_right _ (by omega)
      _ ≤ ofBe n (b :: bytes) := ih _

/-- **Bytes read are the bytes written**: the number they spell has them for its last bytes. -/
theorem toBe_ofBe (bytes : List UInt8) (n : ℕ) : toBe bytes.length (ofBe n bytes) = bytes := by
  induction bytes generalizing n with
  | nil => rfl
  | cons b bytes ih =>
    have hhead : ofBe (n * 256 + b.toNat) bytes / 256 ^ bytes.length = n * 256 + b.toNat := by
      refine Nat.div_eq_of_lt_le (le_ofBe _ _) ?_
      simpa using ofBe_lt bytes (n * 256 + b.toNat)
    have hbyte : UInt8.ofNat (n * 256 + b.toNat) = b := by
      refine UInt8.toNat_inj.mp ?_
      have hb : b.toNat < 256 := b.toNat_lt
      rw [UInt8.toNat_ofNat']
      omega
    rw [List.length_cons, toBe, ofBe_cons, hhead, hbyte, ih]

end Masqr.Lib
