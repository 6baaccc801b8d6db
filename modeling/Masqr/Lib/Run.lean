import Mathlib.Data.List.Basic
import Mathlib.Data.List.Induction
import Mathlib.Tactic.TypeStar

/-!
Runs of a partial step function.

A system is a function from a state and a label to the next state, or to nothing where
the label is not enabled. A run follows a list of labels. An interleaving of several
parties is a run whose labels say which party moves.
-/

namespace Masqr.Lib

variable {σ α : Type*} (step : σ → α → Option σ)

/-- The state after the labels of `as`, all of them enabled in turn. -/
def run : σ → List α → Option σ
  | s, [] => some s
  | s, a :: as => (step s a).bind fun s' => run s' as

/-- Every label of the run meets `C` in the state it is taken from. -/
def Meets (C : σ → α → Prop) : σ → List α → Prop
  | _, [] => True
  | s, a :: as => C s a ∧ match step s a with
    | none => True
    | some s' => Meets C s' as

instance Meets.decide (C : σ → α → Prop) [∀ s a, Decidable (C s a)] :
    (s : σ) → (as : List α) → Decidable (Meets step C s as)
  | _, [] => isTrue trivial
  | s, a :: as =>
    have : Decidable (match step s a with
        | none => True
        | some s' => Meets step C s' as) :=
      match step s a with
      | none => isTrue trivial
      | some s' => Meets.decide C s' as
    inferInstanceAs (Decidable (C s a ∧ _))

variable {step} in
lemma Meets.next {C : σ → α → Prop} {s s' : σ} {a : α} {as : List α}
    (h : Meets step C s (a :: as)) (hs : step s a = some s') : Meets step C s' as := by
  have := h.2
  rwa [hs] at this

@[simp] lemma run_nil (s : σ) : run step s [] = some s := rfl

lemma run_cons {s t : σ} {a : α} {as : List α} :
    run step s (a :: as) = some t ↔ ∃ s', step s a = some s' ∧ run step s' as = some t := by
  simp [run, Option.bind_eq_some_iff]

lemma run_append {s t : σ} {as bs : List α} :
    run step s (as ++ bs) = some t ↔ ∃ s', run step s as = some s' ∧ run step s' bs = some t := by
  induction as generalizing s with
  | nil => simp
  | cons a as ih =>
    rw [List.cons_append, run_cons]
    constructor
    · rintro ⟨s', h, hr⟩
      obtain ⟨s'', h1, h2⟩ := ih.mp hr
      exact ⟨s'', (run_cons step).mpr ⟨s', h, h1⟩, h2⟩
    · rintro ⟨s'', h, h2⟩
      obtain ⟨s', h0, h1⟩ := (run_cons step).mp h
      exact ⟨s', h0, ih.mpr ⟨s'', h1, h2⟩⟩

variable {step}

lemma Meets.cons {C : σ → α → Prop} {s s' : σ} {a : α} {as : List α} (hs : step s a = some s')
    (hc : C s a) (h : Meets step C s' as) : Meets step C s (a :: as) :=
  ⟨hc, by rw [hs]; exact h⟩

/-- What every label of the run meets in any state. -/
lemma Meets.of_forall {C : σ → α → Prop} {as : List α} (h : ∀ a ∈ as, ∀ s, C s a) (s : σ) :
    Meets step C s as := by
  induction as generalizing s with
  | nil => trivial
  | cons a as ih =>
    refine ⟨h a List.mem_cons_self s, ?_⟩
    split
    · trivial
    · exact ih (fun b hb => h b (List.mem_cons_of_mem _ hb)) _

/-- **The invariant rule of runs**, for steps that meet a condition. -/
theorem Meets.run_inv {C : σ → α → Prop} {I : σ → Prop}
    (hstep : ∀ s a s', C s a → I s → step s a = some s' → I s') {s t : σ} {as : List α}
    (hc : Meets step C s as) (hs : I s) (h : run step s as = some t) : I t := by
  induction as generalizing s with
  | nil => exact Option.some.inj h ▸ hs
  | cons a as ih =>
    obtain ⟨s', h1, h2⟩ := (run_cons step).mp h
    exact ih (hc.next h1) (hstep s a s' hc.1 hs h1) h2

/-- **The invariant rule of runs.** -/
theorem run_inv {I : σ → Prop} (hstep : ∀ s a s', I s → step s a = some s' → I s') {s t : σ}
    {as : List α} (hs : I s) (h : run step s as = some t) : I t := by
  induction as generalizing s with
  | nil => exact Option.some.inj h ▸ hs
  | cons a as ih =>
    obtain ⟨s', h1, h2⟩ := (run_cons step).mp h
    exact ih (hstep s a s' hs h1) h2

/-- **Where a step keeps the state good exactly when it meets a condition, a run stays good
exactly when all its steps meet it.** -/
theorem Meets.iff_prefixes {C : σ → α → Prop} {I P : σ → Prop}
    (hstep : ∀ s a s', I s → step s a = some s' → I s')
    (hiff : ∀ s a s', I s → P s → step s a = some s' → (P s' ↔ C s a)) {s t : σ} {as : List α}
    (hI : I s) (hP : P s) (h : run step s as = some t) :
    (∀ bs, bs <+: as → ∀ u, run step s bs = some u → P u) ↔ Meets step C s as := by
  induction as generalizing s with
  | nil =>
    refine iff_of_true (fun bs hb u hu => ?_) trivial
    rw [List.prefix_nil.mp hb] at hu
    exact Option.some.inj hu ▸ hP
  | cons a as ih =>
    obtain ⟨s', h1, h2⟩ := (run_cons step).mp h
    have hI' := hstep s a s' hI h1
    constructor
    · intro hall
      have hP' := hall [a] (by simp) s' ((run_cons step).mpr ⟨s', h1, rfl⟩)
      refine ⟨(hiff s a s' hI hP h1).mp hP', ?_⟩
      rw [h1]
      exact (ih hI' hP' h2).mp fun bs hb u hu => hall (a :: bs)
        ((List.prefix_cons_inj a).mpr hb) u ((run_cons step).mpr ⟨s', h1, hu⟩)
    · intro hm bs hb u hu
      have hP' := (hiff s a s' hI hP h1).mpr hm.1
      cases bs with
      | nil => exact Option.some.inj hu ▸ hP
      | cons b bs =>
        obtain ⟨rfl, hb⟩ := List.cons_prefix_cons.mp hb
        obtain ⟨s'', h3, h4⟩ := (run_cons step).mp hu
        obtain rfl : s' = s'' := Option.some.inj (h1.symm.trans h3)
        exact (ih hI' hP' h2).mpr (hm.next h1) bs ((List.prefix_cons_inj _).mp hb) u h4

/-- A run whose steps meet a condition meets what follows from it in every state that the
condition keeps good. -/
theorem Meets.imp {C Q : σ → α → Prop} {I : σ → Prop}
    (hstep : ∀ s a s', C s a → I s → step s a = some s' → I s')
    (himp : ∀ s a, C s a → I s → Q s a) {s : σ} {as : List α} (hc : Meets step C s as) (hI : I s) :
    Meets step Q s as := by
  induction as generalizing s with
  | nil => exact trivial
  | cons a as ih =>
    refine ⟨himp s a hc.1 hI, ?_⟩
    split
    · trivial
    · next s' hs => exact ih (hc.next hs) (hstep s a s' hc.1 hI hs)

/-- A run that meets a condition meets it in the state it has come to. -/
theorem Meets.of_run {C : σ → α → Prop} {s t : σ} {a : α} {as bs : List α}
    (hc : Meets step C s (as ++ a :: bs)) (h : run step s as = some t) : C t a := by
  induction as generalizing s with
  | nil => exact Option.some.inj h ▸ hc.1
  | cons b as ih =>
    obtain ⟨s', h1, h2⟩ := (run_cons step).mp h
    exact ih (hc.next h1) h2

/-- **Where two conditions are the same in every good state, a run whose steps keep the state
good meets the one exactly when it meets the other.** -/
theorem Meets.congr {A P Q : σ → α → Prop} {I : σ → Prop}
    (hstep : ∀ s a s', A s a → I s → step s a = some s' → I s')
    (hiff : ∀ s a, I s → (P s a ↔ Q s a)) {s : σ} {as : List α} (hA : Meets step A s as)
    (hI : I s) : Meets step P s as ↔ Meets step Q s as := by
  induction as generalizing s with
  | nil => exact Iff.rfl
  | cons a as ih =>
    refine and_congr (hiff s a hI) ?_
    split
    · exact Iff.rfl
    · next s' hs => exact ih (hA.next hs) (hstep s a s' hA.1 hI hs)

/-! ### Histories -/

variable (step) in
/-- The run from `s` takes the label `a` in the state `u`. -/
def Took (s : σ) (as : List α) (a : α) (u : σ) : Prop :=
  ∃ before after, as = before ++ a :: after ∧ run step s before = some u

lemma Took.append {s u : σ} {as : List α} {a : α} (h : Took step s as a u) (bs : List α) :
    Took step s (as ++ bs) a u := by
  obtain ⟨before, after, rfl, hrun⟩ := h
  exact ⟨before, after ++ bs, by simp, hrun⟩

/-- **A run meets a condition exactly where every label meets it in the state it is taken in.** -/
theorem Meets.iff_took {C : σ → α → Prop} {s : σ} {as : List α} :
    Meets step C s as ↔ ∀ a u, Took step s as a u → C u a := by
  constructor
  · rintro hc a u ⟨before, after, rfl, hrun⟩
    exact hc.of_run hrun
  · intro hall
    induction as generalizing s with
    | nil => trivial
    | cons a as ih =>
      refine ⟨hall a s ⟨[], as, rfl, rfl⟩, ?_⟩
      split
      · trivial
      · next s' hs =>
        refine ih fun b u htook => ?_
        obtain ⟨before, after, rfl, hrun⟩ := htook
        exact hall b u ⟨a :: before, after, rfl, (run_cons step).mpr ⟨s', hs, hrun⟩⟩

lemma Took.last {s u : σ} {as : List α} (h : run step s as = some u) (a : α) :
    Took step s (as ++ [a]) a u := ⟨as, [], rfl, h⟩

/-- **The invariant rule of runs**, for a relation between the state and the labels that led
to it. -/
theorem run_history {I : List α → σ → Prop} {s : σ} (h0 : I [] s)
    (hstep : ∀ as t a t', run step s as = some t → I as t → step t a = some t' → I (as ++ [a]) t')
    {t : σ} {as : List α} (h : run step s as = some t) : I as t := by
  induction as using List.reverseRecOn generalizing t with
  | nil => exact Option.some.inj h ▸ h0
  | append_singleton as a ih =>
    obtain ⟨u, h1, h2⟩ := (run_append step).mp h
    obtain ⟨t', h3, h4⟩ := (run_cons step).mp h2
    obtain rfl := Option.some.inj h4
    exact hstep as u a t' h1 (ih h1) h3

end Masqr.Lib
