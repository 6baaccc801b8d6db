import Mathlib.Algebra.BigOperators.Group.Finset.Basic
import Mathlib.Data.Fintype.Basic
import Mathlib.Tactic.Abel
import Mathlib.Algebra.Order.BigOperators.Group.Finset

/-!
A sum over a finite family when one member of the family changes.
-/

namespace Masqr.Lib

variable {ι β M : Type*} [Fintype ι] [DecidableEq ι] [AddCommMonoid M]

/-- The sum loses what the member contributed and gains what its new value contributes. -/
lemma sum_update (fam : ι → β) (i : ι) (v : β) (g : β → M) :
    ∑ j, g (Function.update fam i v j) + g (fam i) = ∑ j, g (fam j) + g v := by
  rw [← Finset.add_sum_erase _ _ (Finset.mem_univ i),
    ← Finset.add_sum_erase (a := i) _ (fun j => g (fam j)) (Finset.mem_univ i),
    Function.update_self]
  have h : ∑ j ∈ Finset.univ.erase i, g (Function.update fam i v j)
      = ∑ j ∈ Finset.univ.erase i, g (fam j) :=
    Finset.sum_congr rfl fun j hj => by rw [Function.update_of_ne (Finset.ne_of_mem_erase hj)]
  rw [h]
  abel

/-- A family that goes down everywhere, and by `p` at one member, goes down by `p`. -/
lemma sum_spend {f g : ι → ℕ} (i : ι) {p : ℕ} (hi : g i + p ≤ f i) (hle : ∀ j, j ≠ i → g j ≤ f j) :
    ∑ j, g j + p ≤ ∑ j, f j := by
  rw [← Finset.add_sum_erase _ f (Finset.mem_univ i), ← Finset.add_sum_erase _ g (Finset.mem_univ i)]
  have h := Finset.sum_le_sum (s := Finset.univ.erase i) (f := g) (g := f)
    fun j hj => hle j (Finset.ne_of_mem_erase hj)
  omega

end Masqr.Lib
