import Mathlib.Data.List.Basic
import Mathlib.Tactic.TypeStar

/-!
The element of a list whose key is extreme: the last of the greatest, the first of the
least. And the order in which a hash map is walked, which nobody promises.
-/

namespace Masqr.Lib

/-- Some order of the entries of a map. -/
structure Walk (α : Type*) where
  order : List α → List α
  perm : ∀ entries, (order entries).Perm entries

def Walk.asHeld {α : Type*} : Walk α := ⟨id, fun _ => List.Perm.refl _⟩

lemma Walk.mem {α : Type*} (walk : Walk α) {a : α} {entries : List α} :
    a ∈ walk.order entries ↔ a ∈ entries := (walk.perm entries).mem_iff

variable {α : Type*} (key : α → ℕ)

def maxByKey : List α → Option α
  | [] => none
  | a :: as =>
    match maxByKey as with
    | none => some a
    | some b => if key a ≤ key b then some b else some a

def minByKey : List α → Option α
  | [] => none
  | a :: as =>
    match minByKey as with
    | none => some a
    | some b => if key a ≤ key b then some a else some b

lemma maxByKey_eq_none {as : List α} : maxByKey key as = none ↔ as = [] := by
  cases as with
  | nil => simp [maxByKey]
  | cons a as =>
    simp only [maxByKey]
    split
    · simp
    · split <;> simp

lemma minByKey_eq_none {as : List α} : minByKey key as = none ↔ as = [] := by
  cases as with
  | nil => simp [minByKey]
  | cons a as =>
    simp only [minByKey]
    split
    · simp
    · split <;> simp

/-- What `maxByKey` picks is in the list, and no element has a greater key. -/
lemma maxByKey_spec {as : List α} {m : α} (h : maxByKey key as = some m) :
    m ∈ as ∧ ∀ a ∈ as, key a ≤ key m := by
  induction as generalizing m with
  | nil => simp [maxByKey] at h
  | cons a as ih =>
    simp only [maxByKey] at h
    split at h
    · next hn =>
      obtain rfl := (maxByKey_eq_none key).mp hn
      obtain rfl : a = m := by simpa using h
      simp
    · next b hb =>
      obtain ⟨hmem, hle⟩ := ih hb
      split at h
      · next hab =>
        obtain rfl : b = m := by simpa using h
        refine ⟨List.mem_cons_of_mem _ hmem, fun c hc => ?_⟩
        rcases List.mem_cons.mp hc with rfl | hc
        · exact hab
        · exact hle c hc
      · next hab =>
        obtain rfl : a = m := by simpa using h
        refine ⟨List.mem_cons_self, fun c hc => ?_⟩
        rcases List.mem_cons.mp hc with rfl | hc
        · exact Nat.le_refl _
        · exact Nat.le_trans (hle c hc) (by omega)

/-- What `minByKey` picks is in the list, and no element has a smaller key. -/
lemma minByKey_spec {as : List α} {m : α} (h : minByKey key as = some m) :
    m ∈ as ∧ ∀ a ∈ as, key m ≤ key a := by
  induction as generalizing m with
  | nil => simp [minByKey] at h
  | cons a as ih =>
    simp only [minByKey] at h
    split at h
    · next hn =>
      obtain rfl := (minByKey_eq_none key).mp hn
      obtain rfl : a = m := by simpa using h
      simp
    · next b hb =>
      obtain ⟨hmem, hle⟩ := ih hb
      split at h
      · next hab =>
        obtain rfl : a = m := by simpa using h
        refine ⟨List.mem_cons_self, fun c hc => ?_⟩
        rcases List.mem_cons.mp hc with rfl | hc
        · exact Nat.le_refl _
        · exact Nat.le_trans hab (hle c hc)
      · next hab =>
        obtain rfl : b = m := by simpa using h
        refine ⟨List.mem_cons_of_mem _ hmem, fun c hc => ?_⟩
        rcases List.mem_cons.mp hc with rfl | hc
        · omega
        · exact hle c hc

/-- Of two parts of a list `minByKey` picks from the second only what is smaller than all of the
first. -/
lemma minByKey_append {as bs : List α} {m : α} (h : minByKey key (as ++ bs) = some m) :
    m ∈ as ∨ ∀ a ∈ as, key m < key a := by
  induction as generalizing m with
  | nil => exact .inr fun a ha => absurd ha List.not_mem_nil
  | cons a as ih =>
    simp only [List.cons_append, minByKey] at h
    split at h
    · obtain rfl : a = m := by simpa using h
      exact .inl List.mem_cons_self
    · next b hb =>
      split at h
      · obtain rfl : a = m := by simpa using h
        exact .inl List.mem_cons_self
      · next hab =>
        obtain rfl : b = m := by simpa using h
        rcases ih hb with hmem | hlt
        · exact .inl (List.mem_cons_of_mem _ hmem)
        · refine .inr fun c hc => ?_
          rcases List.mem_cons.mp hc with rfl | hc
          · omega
          · exact hlt c hc

/-- The order in which those that are wanted come first. -/
def Walk.first (wanted : α → Bool) : Walk α where
  order entries := entries.filter wanted ++ entries.filter fun a => !wanted a
  perm entries := List.filter_append_perm wanted entries

lemma Walk.first_min {wanted : α → Bool} {as : List α} {m : α}
    (h : minByKey key ((Walk.first wanted).order as) = some m) :
    wanted m = true ∨ ∀ a ∈ as, wanted a = true → key m < key a := by
  rcases minByKey_append key h with hm | hlt
  · exact .inl (List.mem_filter.mp hm).2
  · exact .inr fun a ha hw => hlt a (List.mem_filter.mpr ⟨ha, hw⟩)

/-- The greater of two, the second where neither is. -/
def greater (cmp : α → α → Ordering) (x y : α) : α := if cmp x y = .gt then x else y

/-- The greatest under a comparison, the last of those that are equally great. -/
def maxBy (cmp : α → α → Ordering) : List α → Option α
  | [] => none
  | a :: as => some (as.foldl (greater cmp) a)

lemma maxBy_eq_none {cmp : α → α → Ordering} {as : List α} : maxBy cmp as = none ↔ as = [] := by
  cases as <;> simp [maxBy]

section maxBy

variable {cmp : α → α → Ordering} [Std.TransCmp cmp]

variable (cmp) in
lemma le_greater (a b : α) :
    (cmp a (greater cmp a b)).isLE ∧ (cmp b (greater cmp a b)).isLE := by
  unfold greater
  split
  · next h => exact ⟨Std.ReflCmp.isLE_rfl, by rw [@Std.OrientedCmp.eq_swap α cmp, h]; rfl⟩
  · next h => exact ⟨Ordering.ne_gt_iff_isLE.mp h, Std.ReflCmp.isLE_rfl⟩

lemma foldl_greater {as : List α} {a : α} : (as.foldl (greater cmp) a ∈ a :: as) ∧
    ∀ b ∈ a :: as, (cmp b (as.foldl (greater cmp) a)).isLE := by
  induction as generalizing a with
  | nil => simp [Std.ReflCmp.compare_self]
  | cons b as ih =>
    rw [List.foldl_cons]
    -- the greater of the first two stands for both in what follows
    obtain ⟨hmem, hle⟩ := ih (a := greater cmp a b)
    obtain ⟨ha, hb⟩ := le_greater cmp a b
    have htop := hle _ List.mem_cons_self
    constructor
    · rcases List.mem_cons.mp hmem with h | h
      · rw [h, greater]
        split <;> simp
      · exact List.mem_cons_of_mem _ (List.mem_cons_of_mem _ h)
    · intro c hc
      rcases List.mem_cons.mp hc with rfl | hc
      · exact Std.TransCmp.isLE_trans ha htop
      · rcases List.mem_cons.mp hc with rfl | hc
        · exact Std.TransCmp.isLE_trans hb htop
        · exact hle c (List.mem_cons_of_mem _ hc)

/-- What `maxBy` picks is in the list, and no element is greater. -/
lemma maxBy_spec {as : List α} {m : α} (h : maxBy cmp as = some m) :
    m ∈ as ∧ ∀ a ∈ as, (cmp a m).isLE := by
  cases as with
  | nil => simp [maxBy] at h
  | cons a as => exact Option.some.inj h ▸ foldl_greater

end maxBy

end Masqr.Lib
