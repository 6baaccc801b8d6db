import Mathlib

/-!
A running average in whole numbers, held inside bounds.

What there is counts `w` times, a sample once, and every average is rounded down. Under a constant
sample it comes as near to it as a geometric decay, but for a rest of `w` that the rounding leaves.
-/

namespace Masqr.Lib.Smoothing

open Set

/-- The average of what there is, counted `w` times, and a sample. -/
def blend (w x y : ℕ) : ℕ := (x * w + y) / (w + 1)

/-- A number, or the bound it is beyond. -/
def hold (lo hi x : ℕ) : ℕ := max lo (min hi x)

/-- One sample taken in. -/
def follow (w lo hi y x : ℕ) : ℕ := hold lo hi (blend w x y)

variable {w lo hi x y : ℕ}

/-! ### One average -/

lemma blend_bounds (w x y : ℕ) :
    blend w x y * (w + 1) ≤ x * w + y ∧ x * w + y < (blend w x y + 1) * (w + 1) := by
  constructor
  · exact Nat.div_mul_le_self _ _
  · exact (Nat.div_lt_iff_lt_mul (Nat.succ_pos w)).1 (Nat.lt_succ_self _)

@[simp] lemma blend_self (w x : ℕ) : blend w x x = x := by
  rw [blend, ← Nat.mul_succ, Nat.mul_div_cancel _ (Nat.succ_pos w)]

lemma blend_mono (w x : ℕ) : Monotone (blend w x) := fun _ _ h =>
  Nat.div_le_div_right (Nat.add_le_add_left h _)

lemma blend_mono_left (w y : ℕ) : Monotone fun x => blend w x y := fun _ _ h =>
  Nat.div_le_div_right (Nat.add_le_add_right (Nat.mul_le_mul_right w h) _)

lemma blend_mem_uIcc (w x y : ℕ) : blend w x y ∈ uIcc x y := by
  rcases le_total x y with h | h
  · rw [uIcc_of_le h]
    exact ⟨(blend_self w x).ge.trans (blend_mono w x h),
      (blend_mono_left w y h).trans (blend_self w y).le⟩
  · rw [uIcc_of_ge h]
    exact ⟨(blend_self w y).ge.trans (blend_mono_left w y h),
      (blend_mono w x h).trans (blend_self w x).le⟩

/-- An average is as near as its share, but for what the rounding takes. -/
lemma dist_blend (w x y : ℕ) :
    |(blend w x y : ℝ) - y| ≤ w / (w + 1) * |(x : ℝ) - y| + w / (w + 1) := by
  obtain ⟨hlow, hhigh⟩ := blend_bounds w x y
  have hlow' : (blend w x y : ℝ) * (w + 1) ≤ x * w + y := by exact_mod_cast hlow
  have hhigh' : (x : ℝ) * w + y + 1 ≤ (blend w x y + 1) * (w + 1) := by exact_mod_cast hhigh
  have hw : (0 : ℝ) < w + 1 := by positivity
  have hmul : |(blend w x y : ℝ) - y| * (w + 1) ≤ w * |(x : ℝ) - y| + w := by
    have hbetween := blend_mem_uIcc w x y
    rcases le_total x y with h | h
    · rw [uIcc_of_le h] at hbetween
      have hy : (blend w x y : ℝ) ≤ y := by exact_mod_cast hbetween.2
      have hxy : (x : ℝ) ≤ y := by exact_mod_cast h
      rw [abs_of_nonpos (sub_nonpos.2 hy), abs_of_nonpos (sub_nonpos.2 hxy)]
      linarith
    · rw [uIcc_of_ge h] at hbetween
      have hy : (y : ℝ) ≤ blend w x y := by exact_mod_cast hbetween.1
      have hxy : (y : ℝ) ≤ x := by exact_mod_cast h
      rw [abs_of_nonneg (sub_nonneg.2 hy), abs_of_nonneg (sub_nonneg.2 hxy)]
      linarith
  calc |(blend w x y : ℝ) - y| ≤ (w * |(x : ℝ) - y| + w) / (w + 1) := (le_div_iff₀ hw).2 hmul
    _ = w / (w + 1) * |(x : ℝ) - y| + w / (w + 1) := by ring

/-! ### Bounds -/

lemma hold_mono (lo hi : ℕ) : Monotone (hold lo hi) := fun _ _ h =>
  max_le_max_left lo (min_le_min_left hi h)

lemma hold_of_mem (h : x ∈ Icc lo hi) : hold lo hi x = x := by
  rw [hold, min_eq_right h.2, max_eq_right h.1]

lemma hold_mem (h : lo ≤ hi) (x : ℕ) : hold lo hi x ∈ Icc lo hi :=
  ⟨le_max_left _ _, max_le h (min_le_left _ _)⟩

/-! ### One sample -/

lemma follow_mem (h : lo ≤ hi) (w x y : ℕ) : follow w lo hi y x ∈ Icc lo hi := hold_mem h _

/-- **One sample moves it towards the sample held inside the bounds**, and not past. -/
theorem follow_mem_uIcc (hx : x ∈ Icc lo hi) (w y : ℕ) :
    follow w lo hi y x ∈ uIcc x (hold lo hi y) := by
  have hmoved := (hold_mono lo hi).mapsTo_uIcc (blend_mem_uIcc w x y)
  rwa [hold_of_mem hx] at hmoved

lemma hold_of_lt (h : y < hold lo hi y) : hold lo hi y = lo := by
  rcases max_choice lo (min hi y) with hlo | hin
  · exact hlo
  · have hle : hold lo hi y ≤ y := hin.le.trans (min_le_right _ _)
    exact absurd h (not_lt.2 hle)

lemma hold_of_gt (hbounds : lo ≤ hi) (h : hold lo hi y < y) : hold lo hi y = hi := by
  rcases le_total hi y with hhi | hin
  · rw [hold, min_eq_left hhi, max_eq_right hbounds]
  · have hle : y ≤ hold lo hi y := (min_eq_right hin).ge.trans (le_max_right _ _)
    exact absurd h (not_lt.2 hle)

/-- A sample beyond a bound pulls no less than the bound itself. -/
lemma follow_mem_blend (hx : x ∈ Icc lo hi) (w y : ℕ) :
    follow w lo hi y x ∈ uIcc (blend w x (hold lo hi y)) (hold lo hi y) := by
  have hbounds : lo ≤ hi := hx.1.trans hx.2
  have hgoal := hold_mem hbounds y
  have hinside : blend w x (hold lo hi y) ∈ Icc lo hi :=
    uIcc_subset_Icc hx hgoal (blend_mem_uIcc w x _)
  have hmem := follow_mem hbounds w x y
  have hpull : ∀ {a b}, a ≤ b → hold lo hi (blend w x a) ≤ hold lo hi (blend w x b) := fun h =>
    hold_mono lo hi (blend_mono w x h)
  rcases lt_trichotomy y (hold lo hi y) with hlow | hsame | hhigh
  · have hfar := hpull hlow.le
    rw [hold_of_mem hinside] at hfar
    exact mem_uIcc_of_ge ((hold_of_lt hlow).le.trans hmem.1) hfar
  · rw [follow, ← hsame, hold_of_mem (hsame ▸ hinside)]
    exact left_mem_uIcc
  · have hfar := hpull hhigh.le
    rw [hold_of_mem hinside] at hfar
    exact mem_uIcc_of_le hfar (hmem.2.trans (hold_of_gt hbounds hhigh).ge)

/-- **One sample brings it nearer by a share**, but for what the rounding takes. -/
theorem dist_follow (hx : x ∈ Icc lo hi) (w y : ℕ) :
    |(follow w lo hi y x : ℝ) - hold lo hi y| ≤
      w / (w + 1) * |(x : ℝ) - hold lo hi y| + w / (w + 1) := by
  have hcast : Monotone (Nat.cast : ℕ → ℝ) := Nat.mono_cast
  have hpast := hcast.mapsTo_uIcc (follow_mem_blend hx w y)
  have hnear := abs_sub_right_of_mem_uIcc hpast
  rw [abs_sub_comm, abs_sub_comm _ ((blend w x (hold lo hi y) : ℕ) : ℝ)] at hnear
  exact hnear.trans (dist_blend w x (hold lo hi y))

/-! ### A constant sample -/

lemma iterate_mem (hx : x ∈ Icc lo hi) (w y n : ℕ) : (follow w lo hi y)^[n] x ∈ Icc lo hi := by
  cases n with
  | zero => exact hx
  | succ n =>
    rw [Function.iterate_succ_apply']
    exact follow_mem (hx.1.trans hx.2) w _ y

/-- **Under a constant sample the distance decays geometrically**, but for a rest. -/
theorem dist_iterate (hx : x ∈ Icc lo hi) (w y n : ℕ) :
    |((follow w lo hi y)^[n] x : ℝ) - hold lo hi y| ≤
      (w / (w + 1)) ^ n * |(x : ℝ) - hold lo hi y| + w := by
  have hw : (0 : ℝ) < w + 1 := by positivity
  have hstep : ∀ k < n, |((follow w lo hi y)^[k + 1] x : ℝ) - hold lo hi y| - w ≤
      w / (w + 1) * (|((follow w lo hi y)^[k] x : ℝ) - hold lo hi y| - w) := by
    intro k _
    have hnear := dist_follow (iterate_mem hx w y k) w y
    rw [Function.iterate_succ_apply']
    calc |(follow w lo hi y ((follow w lo hi y)^[k] x) : ℝ) - hold lo hi y| - w
        ≤ w / (w + 1) * |((follow w lo hi y)^[k] x : ℝ) - hold lo hi y| + w / (w + 1) - w :=
          sub_le_sub_right hnear _
      _ = w / (w + 1) * (|((follow w lo hi y)^[k] x : ℝ) - hold lo hi y| - w) := by
          field_simp
          ring
  have hdecay := le_geom (u := fun k => |((follow w lo hi y)^[k] x : ℝ) - hold lo hi y| - w)
    (by positivity) n hstep
  have hpow : (0 : ℝ) ≤ (w / (w + 1)) ^ n * w := by positivity
  simp only [Function.iterate_zero, id] at hdecay
  linarith

end Masqr.Lib.Smoothing
