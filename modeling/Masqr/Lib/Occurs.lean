import Mathlib

/-!
Where a word occurs in a text, and which pieces of the text show the whole of it.
-/

namespace Masqr.Lib

variable {α : Type*} {word text : List α} {p : ℕ}

/-- The word occurs in the text once, at place `p`. -/
def Once (word text : List α) (p : ℕ) : Prop := ∀ i, word <+: text.drop i ↔ i = p

lemma Once.at (h : Once word text p) : word <+: text.drop p := (h p).2 rfl

lemma Once.length_pos (h : Once word text p) : 0 < word.length := by
  by_contra hnone
  obtain rfl : word = [] := List.length_eq_zero_iff.1 (by omega)
  have hnext := (h (p + 1)).1 List.nil_prefix
  omega

lemma Once.reaches (h : Once word text p) : p + word.length ≤ text.length := by
  have hlen := h.at.length_le
  have hpos := h.length_pos
  rw [List.length_drop] at hlen
  omega

lemma prefix_drop_take {i n : ℕ} (hne : 0 < word.length) :
    word <+: (text.take n).drop i ↔ word <+: text.drop i ∧ i + word.length ≤ n := by
  rw [List.drop_take, List.prefix_take_iff]
  exact and_congr_right fun _ => by omega

/-- **A piece of the text shows the whole word** exactly where it begins at its first letter or
before, and ends at its last or after. -/
theorem Once.shown_iff (h : Once word text p) (a n : ℕ) :
    word <:+: (text.drop a).take n ↔ a ≤ p ∧ p + word.length ≤ a + n := by
  have hpos := h.length_pos
  constructor
  · rintro ⟨before, after, heq⟩
    have hword : word <+: ((text.drop a).take n).drop before.length := by
      rw [← heq, List.append_assoc, List.drop_left]
      exact List.prefix_append _ _
    obtain ⟨hat, hfits⟩ := (prefix_drop_take hpos).1 hword
    rw [List.drop_drop] at hat
    have hplace := (h _).1 hat
    omega
  · rintro ⟨hle, hend⟩
    have hat : word <+: ((text.drop a).take n).drop (p - a) := by
      refine (prefix_drop_take hpos).2 ⟨?_, by omega⟩
      rw [List.drop_drop, Nat.add_sub_cancel' hle]
      exact h.at
    exact hat.isInfix.trans (List.drop_suffix _ _).isInfix

/-- The word occurs once in what the text begins with, where that shows it. -/
lemma Once.front (h : Once word text p) {front : List α} (hfront : front <+: text)
    (hshown : word <:+: front) : Once word front p := by
  have hpos := h.length_pos
  have htake : front = text.take front.length := List.prefix_iff_eq_take.1 hfront
  rw [htake] at hshown
  have hreach := (h.shown_iff 0 front.length).1 (by rwa [List.drop_zero])
  intro i
  rw [htake, prefix_drop_take hpos, h i, and_iff_left_iff_imp]
  rintro rfl
  omega

/-! ### Looking for it -/

/-- The pieces of so many letters, from the front on. -/
def windows (size : ℕ) (text : List α) : List (List α) :=
  (List.range (text.length + 1 - size)).map fun i => (text.drop i).take size

lemma Once.findIdx?_windows [DecidableEq α] (h : Once word text p) :
    (windows word.length text).findIdx? (· == word) = some p := by
  have hreach := h.reaches
  have hsame : ∀ i, (text.drop i).take word.length = word ↔ i = p := fun i => by
    rw [← h i, List.prefix_iff_eq_take, eq_comm]
  rw [List.findIdx?_eq_some_iff_getElem]
  refine ⟨by simp only [windows, List.length_map, List.length_range]; omega, ?_, fun j hj => ?_⟩
  · simp only [windows, List.getElem_map, List.getElem_range, beq_iff_eq]
    exact (hsame p).2 rfl
  · simp only [windows, List.getElem_map, List.getElem_range, beq_iff_eq]
    exact fun hj' => absurd ((hsame j).1 hj') (Nat.ne_of_lt hj)

end Masqr.Lib
