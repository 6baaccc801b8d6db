import Mathlib

/-!
Canonical prefix codes, given by how many codes there are of each length.

The codes of one length are consecutive numbers, and each length starts where the last one
ended, shifted. So a reader that goes bit by bit tells a code that has ended from one that has
not by comparing two numbers.
-/

namespace Masqr.Lib

/-- The number bits spell, the first the greatest. -/
def bitsValue (bits : List Bool) : ℕ := bits.foldl (fun n b => 2 * n + b.toNat) 0

/-- The last so many bits of a number. -/
def toBits : ℕ → ℕ → List Bool
  | 0, _ => []
  | length + 1, n => toBits length (n / 2) ++ [n % 2 == 1]

@[simp] lemma bitsValue_nil : bitsValue [] = 0 := rfl

@[simp] lemma bitsValue_snoc (bits : List Bool) (b : Bool) :
    bitsValue (bits ++ [b]) = 2 * bitsValue bits + b.toNat := by
  simp [bitsValue]

@[simp] lemma length_toBits (length n : ℕ) : (toBits length n).length = length := by
  induction length generalizing n with
  | zero => rfl
  | succ length ih => simp [toBits, ih]

lemma bitsValue_lt (bits : List Bool) : bitsValue bits < 2 ^ bits.length := by
  induction bits using List.reverseRecOn with
  | nil => simp
  | append_singleton bits b ih =>
    have hb : b.toNat ≤ 1 := b.toNat_le
    rw [bitsValue_snoc, List.length_append, List.length_singleton, Nat.pow_succ]
    omega

/-- **Bits are given by their number and how many they are.** -/
theorem toBits_bitsValue (bits : List Bool) : toBits bits.length (bitsValue bits) = bits := by
  induction bits using List.reverseRecOn with
  | nil => rfl
  | append_singleton bits b ih =>
    have hdiv : (2 * bitsValue bits + b.toNat) / 2 = bitsValue bits := by
      have := b.toNat_le
      omega
    have hmod : ((2 * bitsValue bits + b.toNat) % 2 == 1) = b := by
      cases b <;> simp [Nat.add_mod]
    rw [bitsValue_snoc, List.length_append, List.length_singleton, toBits, hdiv, hmod, ih]

lemma bitsValue_toBits {length n : ℕ} (h : n < 2 ^ length) : bitsValue (toBits length n) = n := by
  induction length generalizing n with
  | zero =>
    have hzero : n = 0 := by simpa using h
    rw [hzero]
    rfl
  | succ length ih =>
    have hhalf : n / 2 < 2 ^ length := by
      rw [Nat.pow_succ] at h
      omega
    have hlast : (n % 2 == 1).toNat = n % 2 := by
      rcases Nat.mod_two_eq_zero_or_one n with h0 | h1 <;> simp [*]
    rw [toBits, bitsValue_snoc, ih hhalf, hlast]
    omega

namespace PrefixCode

/-- The first code of each length. -/
def first (count : ℕ → ℕ) : ℕ → ℕ
  | 0 => 0
  | length + 1 => 2 * (first count length + count length)

/-- How many codes are shorter than a length. -/
def index (count : ℕ → ℕ) : ℕ → ℕ
  | 0 => 0
  | length + 1 => index count length + count length

end PrefixCode

/-- How many codes there are of each length, where every run of bits is the start of some code. -/
structure PrefixCode where
  count : ℕ → ℕ
  longest : ℕ
  count_zero : count 0 = 0
  complete : PrefixCode.first count longest + count longest = 2 ^ longest

namespace PrefixCode

variable (c : PrefixCode)

/-- The bits are a code. -/
def IsCode (bits : List Bool) : Prop :=
  first c.count bits.length ≤ bitsValue bits ∧
    bitsValue bits < first c.count bits.length + c.count bits.length

/-- Where a code stands among all the codes. -/
def position (bits : List Bool) : ℕ :=
  index c.count bits.length + (bitsValue bits - first c.count bits.length)

/-- No code has ended within the bits. -/
def Open (bits : List Bool) : Prop := ∀ w, w <+: bits → ¬ c.IsCode w

variable {c} {bits w : List Bool}

lemma open_nil : c.Open [] := by
  intro w hw hcode
  obtain rfl := List.prefix_nil.1 hw
  have hlt := hcode.2
  simp [c.count_zero, first] at hlt

lemma Open.of_prefix (h : c.Open bits) (hw : w <+: bits) : c.Open w :=
  fun u hu => h u (hu.trans hw)

lemma Open.snoc {b : Bool} (h : c.Open bits) (hb : ¬ c.IsCode (bits ++ [b])) :
    c.Open (bits ++ [b]) := by
  intro w hw
  rcases List.prefix_concat_iff.1 hw with rfl | hw
  · exact hb
  · exact h w hw

/-- Bits in which no code has ended are past all the codes of their length. -/
lemma Open.le (h : c.Open bits) :
    first c.count bits.length + c.count bits.length ≤ bitsValue bits := by
  induction bits using List.reverseRecOn with
  | nil => simp [first, c.count_zero]
  | append_singleton bits b ih =>
    have hbefore := ih (h.of_prefix (List.prefix_append bits [b]))
    have hnot := h _ (List.prefix_refl _)
    unfold IsCode at hnot
    simp only [List.length_append, List.length_singleton, first, bitsValue_snoc] at hnot ⊢
    omega

/-- The longest codes leave no bits without one. -/
lemma Open.length_lt (h : c.Open bits) : bits.length < c.longest := by
  by_contra hlong
  have htake : (bits.take c.longest).length = c.longest := by
    rw [List.length_take]
    omega
  have hle := (h.of_prefix (List.take_prefix c.longest bits)).le
  have hlt := bitsValue_lt (bits.take c.longest)
  have hall := c.complete
  rw [htake] at hle hlt
  omega

/-- What goes on after a code is below the codes of its length. -/
lemma IsCode.append_lt (h : c.IsCode w) (more : List Bool) (b : Bool) :
    bitsValue (w ++ more ++ [b]) < first c.count (w ++ more ++ [b]).length := by
  have hbelow : bitsValue (w ++ more) <
      first c.count (w ++ more).length + c.count (w ++ more).length := by
    induction more using List.reverseRecOn with
    | nil => simpa using h.2
    | append_singleton more b ih =>
      have hb : b.toNat ≤ 1 := b.toNat_le
      rw [← List.append_assoc, bitsValue_snoc, List.length_append, List.length_singleton, first]
      omega
  have hb : b.toNat ≤ 1 := b.toNat_le
  rw [bitsValue_snoc, List.length_append, List.length_singleton, first]
  omega

/-- **No code is the start of another**: within a code none has ended before its last bit. -/
theorem IsCode.init_open {b : Bool} (h : c.IsCode (bits ++ [b])) : c.Open bits := by
  rintro w ⟨more, rfl⟩ hcode
  exact absurd h.1 (Nat.not_le.2 (hcode.append_lt more b))

end PrefixCode

end Masqr.Lib
