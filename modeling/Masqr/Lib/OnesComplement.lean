import Mathlib

/-!
Ones'-complement sums.

Words go from `0` to `m`, and a sum that leaves them comes around: what is over `m` is added at the
other end. Both `0` and `m` stand for zero, and a sum is `0` only where every word is.
-/

namespace Masqr.Lib.OnesComplement

variable {m : ℕ}

/-- Two words added, the carry brought around. -/
def add (m a b : ℕ) : ℕ := if a + b ≤ m then a + b else a + b - m

/-- The words added up. -/
def sum (m : ℕ) (words : List ℕ) : ℕ := words.foldl (add m) 0

/-- The word a number comes to. -/
def residue (m n : ℕ) : ℕ := if n = 0 then 0 else (n - 1) % m + 1

lemma residue_le (hm : 0 < m) (n : ℕ) : residue m n ≤ m := by
  unfold residue
  split_ifs
  · exact Nat.zero_le m
  · have hlt := Nat.mod_lt (n - 1) hm
    omega

lemma residue_of_le {n : ℕ} (h : n ≤ m) : residue m n = n := by
  unfold residue
  split_ifs with hzero
  · exact hzero.symm
  · rw [Nat.mod_eq_of_lt (by omega)]
    omega

/-- What is a whole number of `m` above another, and not zero, comes to the same word. -/
lemma residue_add_mul {n : ℕ} (hn : n ≠ 0) (k : ℕ) : residue m (n + m * k) = residue m n := by
  unfold residue
  rw [if_neg hn, if_neg (by omega), show n + m * k - 1 = n - 1 + m * k by omega,
    Nat.add_mul_mod_self_left]

/-- Every number is its word and a whole number of `m`. -/
lemma residue_split (n : ℕ) : ∃ k, n = residue m n + m * k := by
  unfold residue
  split_ifs with hzero
  · exact ⟨0, by omega⟩
  · refine ⟨(n - 1) / m, ?_⟩
    have hdiv := Nat.mod_add_div (n - 1) m
    omega

lemma residue_ne_zero {n : ℕ} (hn : n ≠ 0) : residue m n ≠ 0 := by
  unfold residue
  rw [if_neg hn]
  omega

/-- One more word, and the carry brought around. -/
lemma add_residue {w : ℕ} (hm : 0 < m) (hw : w ≤ m) (n : ℕ) :
    add m (residue m n) w = residue m (n + w) := by
  rcases Nat.eq_zero_or_pos n with rfl | hn
  · have hzero : residue m 0 = 0 := rfl
    rw [hzero, Nat.zero_add, residue_of_le hw]
    simp [add, hw]
  · obtain ⟨k, hk⟩ := residue_split (m := m) n
    have hle := residue_le hm n
    have hpos := residue_ne_zero (m := m) hn.ne'
    have hsame : residue m (n + w) = residue m (residue m n + w) := by
      calc residue m (n + w) = residue m (residue m n + w + m * k) := by
            rw [show n + w = residue m n + w + m * k by omega]
        _ = residue m (residue m n + w) := residue_add_mul (by omega) k
    rw [hsame]
    unfold add
    split_ifs with hfits
    · rw [residue_of_le hfits]
    · calc residue m n + w - m = residue m (residue m n + w - m) :=
            (residue_of_le (by omega)).symm
        _ = residue m (residue m n + w - m + m * 1) := (residue_add_mul (by omega) 1).symm
        _ = residue m (residue m n + w) := by
            rw [show residue m n + w - m + m * 1 = residue m n + w by omega]

/-- **The carries may be brought around one by one or all at the end.** -/
theorem sum_eq_residue (hm : 0 < m) {words : List ℕ} (h : ∀ w ∈ words, w ≤ m) :
    sum m words = residue m words.sum := by
  induction words using List.reverseRecOn with
  | nil => rfl
  | append_singleton words w ih =>
    have hwords := ih fun v hv => h v (List.mem_append_left _ hv)
    unfold sum at hwords ⊢
    rw [List.foldl_append, List.foldl_cons, List.foldl_nil, hwords,
      add_residue hm (h w (by simp)), List.sum_append, List.sum_singleton]

/-- **A sum and its complement are all ones.** -/
theorem residue_add_complement (hm : 0 < m) (n : ℕ) : residue m (n + (m - residue m n)) = m := by
  obtain ⟨k, hk⟩ := residue_split (m := m) n
  have hle := residue_le hm n
  calc residue m (n + (m - residue m n)) = residue m (m + m * k) := by
        rw [show n + (m - residue m n) = m + m * k by omega]
    _ = residue m m := residue_add_mul hm.ne' k
    _ = m := residue_of_le le_rfl

/-- The complement of a sum, all ones where that would be nothing. -/
def complement (m n : ℕ) : ℕ := if m - residue m n = 0 then m else m - residue m n

lemma complement_ne_zero (hm : 0 < m) (n : ℕ) : complement m n ≠ 0 := by
  unfold complement
  split_ifs with hzero
  · exact hm.ne'
  · exact hzero

lemma complement_le (n : ℕ) : complement m n ≤ m := by
  unfold complement
  split_ifs
  · exact le_rfl
  · exact Nat.sub_le _ _

/-- **All ones do as well as nothing**: both stand for zero. -/
theorem residue_add_complement_ne (hm : 0 < m) (n : ℕ) : residue m (n + complement m n) = m := by
  unfold complement
  split_ifs with hzero
  · have hfull : residue m n = m := le_antisymm (residue_le hm n) (Nat.sub_eq_zero_iff_le.1 hzero)
    have hn : n ≠ 0 := by
      rintro rfl
      exact hm.ne hfull
    calc residue m (n + m) = residue m (n + m * 1) := by rw [Nat.mul_one]
      _ = residue m n := residue_add_mul hn 1
      _ = m := hfull
  · exact residue_add_complement hm n

end Masqr.Lib.OnesComplement
