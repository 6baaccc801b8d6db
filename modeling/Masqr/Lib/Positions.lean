import Mathlib.Data.List.Induction
import Mathlib.Data.Nat.Notation
import Mathlib.Tactic.TypeStar

/-!
Taking elements out of a list by their positions, the last position first.

Positions collected in one pass stay valid as long as what is taken out is behind them, so the
greatest goes first.
-/

namespace Masqr.Lib

variable {α : Type*} (p : α → Bool)

/-- Where a predicate holds in a list. -/
def positions (l : List α) : List ℕ := (l.zipIdx.filter fun entry => p entry.1).map Prod.snd

/-- The list without the elements at some positions, the last of them taken out first. -/
def eraseAll (l : List α) (places : List ℕ) : List α := places.reverse.foldl List.eraseIdx l

lemma positions_append_singleton (l : List α) (a : α) :
    positions p (l ++ [a]) = positions p l ++ if p a then [l.length] else [] := by
  unfold positions
  rw [List.zipIdx_append, List.filter_append, List.map_append, Nat.zero_add]
  cases hp : p a <;> simp [hp]

lemma positions_none {l : List α} (h : ∀ a ∈ l, p a = false) : positions p l = [] := by
  unfold positions
  have hnone : l.zipIdx.filter (fun entry => p entry.1) = [] := by
    refine List.filter_eq_nil_iff.2 fun entry hmem => ?_
    rw [h entry.1 (List.fst_mem_of_mem_zipIdx hmem)]
    exact Bool.false_ne_true
  rw [hnone, List.map_nil]

/-- Past the last element that meets the predicate there is no position. -/
lemma positions_append_none (l : List α) {l' : List α} (h : ∀ a ∈ l', p a = false) :
    positions p (l ++ l') = positions p l := by
  induction l' using List.reverseRecOn with
  | nil => rw [List.append_nil]
  | append_singleton l' a ih =>
    have ha : p a = false := h a (by simp)
    rw [← List.append_assoc, positions_append_singleton, ha,
      ih fun b hb => h b (List.mem_append_left _ hb)]
    simp

/-- **Taking out what is at the positions of a predicate** leaves what does not meet it, and what
comes after. -/
theorem eraseAll_positions (l l' : List α) :
    eraseAll (l ++ l') (positions p l) = l.filter (fun a => !p a) ++ l' := by
  induction l using List.reverseRecOn generalizing l' with
  | nil => rfl
  | append_singleton l a ih =>
    unfold eraseAll at ih ⊢
    rw [positions_append_singleton, List.reverse_append, List.append_assoc, List.filter_append,
      List.append_assoc]
    cases hp : p a
    · have hkept := ih ([a] ++ l')
      simpa [hp] using hkept
    · have hgone : (l ++ ([a] ++ l')).eraseIdx l.length = l ++ l' := by
        rw [List.eraseIdx_append_of_length_le (Nat.le_refl _)]
        simp
      have hrest := ih l'
      simp only [if_true, List.reverse_singleton, List.foldl_append, List.foldl_cons,
        List.foldl_nil, hgone, hrest]
      simp [hp]

/-- An element that meets the predicate and none after it that does. -/
lemma exists_last {l : List α} (h : ∃ a ∈ l, p a = true) : ∃ before last after,
    l = before ++ last :: after ∧ p last = true ∧ ∀ a ∈ after, p a = false := by
  induction l with
  | nil =>
    obtain ⟨a, ha, -⟩ := h
    cases ha
  | cons b l ih =>
    by_cases hrest : ∃ a ∈ l, p a = true
    · obtain ⟨before, last, after, rfl, hlast, hafter⟩ := ih hrest
      exact ⟨b :: before, last, after, rfl, hlast, hafter⟩
    · have hnone : ∀ a ∈ l, p a = false := fun a ha =>
        Bool.eq_false_iff.2 fun hp => hrest ⟨a, ha, hp⟩
      obtain ⟨a, ha, hp⟩ := h
      rcases List.mem_cons.1 ha with rfl | ha
      · exact ⟨[], a, l, rfl, hp, hnone⟩
      · exact absurd hp (by rw [hnone a ha]; exact Bool.false_ne_true)

/-- **All but the last** of what meets a predicate is taken out, and nothing else. -/
theorem eraseAll_dropLast {before after : List α} {last : α} (hlast : p last = true)
    (hafter : ∀ a ∈ after, p a = false) :
    eraseAll (before ++ last :: after) (positions p (before ++ last :: after)).dropLast =
      before.filter (fun a => !p a) ++ last :: after := by
  have hsplit : before ++ last :: after = (before ++ [last]) ++ after := by simp
  have hplaces : (positions p (before ++ last :: after)).dropLast = positions p before := by
    rw [hsplit, positions_append_none p _ hafter, positions_append_singleton, if_pos hlast,
      List.dropLast_concat]
  rw [hplaces, eraseAll_positions]

end Masqr.Lib
