import Mathlib.Data.List.Nodup
import Mathlib.Data.Nat.Notation
import Mathlib.Tactic.TypeStar

/-!
A list served in turns: the one at the front goes to the back.

Two that stay on the list take turns, whatever joins it, leaves it or is served between them. The
order they stand in tells which of them has had one turn more.
-/

namespace Masqr.Lib

variable {α : Type*} {i j k : α} {n m : ℕ} {l : List α}

/-- `i` and `j` have had `n` and `m` turns, and the one behind is the one that was served last. -/
def Alternating (i j : α) (n m : ℕ) (l : List α) : Prop :=
  ([i, j].Sublist l ∧ n = m) ∨ ([j, i].Sublist l ∧ n = m + 1)

/-- Of two on a list one comes before the other. -/
lemma pair_sublist (hij : i ≠ j) (hi : i ∈ l) (hj : j ∈ l) :
    [i, j].Sublist l ∨ [j, i].Sublist l := by
  induction l with
  | nil => cases hi
  | cons a l ih =>
    rcases List.mem_cons.1 hi with rfl | hi'
    · have hj' : j ∈ l := (List.mem_cons.1 hj).resolve_left hij.symm
      exact .inl ((List.singleton_sublist.2 hj').cons_cons i)
    · rcases List.mem_cons.1 hj with rfl | hj'
      · exact .inr ((List.singleton_sublist.2 hi').cons_cons j)
      · exact (ih hi' hj').imp (·.cons a) (·.cons a)

/-- Another one leaves the front. -/
lemma pair_tail (hi : k ≠ i) (h : [i, j].Sublist (k :: l)) : [i, j].Sublist l := by
  cases h with
  | cons _ h => exact h
  | cons_cons _ _ => exact absurd rfl hi

namespace Alternating

lemma mem (h : Alternating i j n m l) : i ∈ l ∧ j ∈ l := by
  rcases h with ⟨h, -⟩ | ⟨h, -⟩ <;> exact ⟨h.subset (by simp), h.subset (by simp)⟩

lemma append (h : Alternating i j n m l) (l' : List α) : Alternating i j n m (l ++ l') :=
  h.imp (fun h => ⟨h.1.trans (List.sublist_append_left l l'), h.2⟩)
    fun h => ⟨h.1.trans (List.sublist_append_left l l'), h.2⟩

lemma tail (h : Alternating i j n m (k :: l)) (hi : k ≠ i) (hj : k ≠ j) :
    Alternating i j n m l :=
  h.imp (fun h => ⟨pair_tail hi h.1, h.2⟩) fun h => ⟨pair_tail hj h.1, h.2⟩

/-- The one at the front is served. -/
lemma pair_served (hk : k ∉ l) (h : [k, j].Sublist (k :: l)) : [j, k].Sublist (l ++ [k]) := by
  have hj : [j].Sublist l := by
    cases h with
    | cons _ h => exact absurd (h.subset List.mem_cons_self) hk
    | cons_cons _ h => exact h
  exact hj.append (List.Sublist.refl [k])

theorem served [DecidableEq α] (h : Alternating i j n m (k :: l)) (hk : k ∉ l) (hij : i ≠ j) :
    Alternating i j (if k = i then n + 1 else n) (if k = j then m + 1 else m) (l ++ [k]) := by
  by_cases hi : k = i
  · subst hi
    rw [if_pos rfl, if_neg hij]
    rcases h with ⟨h, rfl⟩ | ⟨h, rfl⟩
    · exact .inr ⟨pair_served hk h, rfl⟩
    · exact absurd ((pair_tail hij h).subset (by simp)) hk
  · by_cases hj : k = j
    · subst hj
      rw [if_neg hi, if_pos rfl]
      rcases h with ⟨h, rfl⟩ | ⟨h, rfl⟩
      · exact absurd ((pair_tail hi h).subset (by simp)) hk
      · exact .inl ⟨pair_served hk h, rfl⟩
    · rw [if_neg hi, if_neg hj]
      exact (h.tail hi hj).append [k]

/-- **They take turns**: neither is ever more than a turn ahead. -/
theorem turns (h : Alternating i j n m l) : m ≤ n ∧ n ≤ m + 1 := by
  rcases h with ⟨-, rfl⟩ | ⟨-, rfl⟩ <;> omega

end Alternating

end Masqr.Lib
