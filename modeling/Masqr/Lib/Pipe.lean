import Mathlib
import Masqr.Lib.Stream

/-!
A reader whose records go straight into a machine that may turn one down.

The machine takes the records in the order they come in, so where it stops depends on the records
alone, and with them on the stream and not on its pieces.
-/

namespace Masqr.Lib

variable {α β ε σ γ τ : Type*}

/-- A machine over a list of records: what it makes of each, and the one it turned down. -/
def judgeAll (judge : γ → β → Except ε τ × γ) : γ → List β → List τ × Option ε × γ
  | c, [] => ([], none, c)
  | c, b :: bs =>
    match judge c b with
    | (.error e, c') => ([], some e, c')
    | (.ok t, c') => (t :: (judgeAll judge c' bs).1, (judgeAll judge c' bs).2)

section

variable {judge : γ → β → Except ε τ × γ}

@[simp] lemma judgeAll_nil (c : γ) : judgeAll judge c [] = ([], none, c) := rfl

lemma judgeAll_error {c c' : γ} {b : β} {e : ε} (h : judge c b = (.error e, c')) (bs : List β) :
    judgeAll judge c (b :: bs) = ([], some e, c') := by
  rw [judgeAll, h]

lemma judgeAll_ok {c c' : γ} {b : β} {t : τ} (h : judge c b = (.ok t, c')) (bs : List β) :
    judgeAll judge c (b :: bs) = (t :: (judgeAll judge c' bs).1, (judgeAll judge c' bs).2) := by
  rw [judgeAll, h]

lemma judgeAll_append_some {c : γ} {as : List β} {e : ε} (h : (judgeAll judge c as).2.1 = some e)
    (bs : List β) : judgeAll judge c (as ++ bs) = judgeAll judge c as := by
  induction as generalizing c with
  | nil => cases h
  | cons a as ih =>
    rcases hj : judge c a with ⟨problem | t, c'⟩
    · rw [List.cons_append, judgeAll_error hj, judgeAll_error hj]
    · rw [judgeAll_ok hj] at h
      rw [List.cons_append, judgeAll_ok hj, judgeAll_ok hj, ih h]

lemma judgeAll_append_none {c : γ} {as : List β} (h : (judgeAll judge c as).2.1 = none)
    (bs : List β) : judgeAll judge c (as ++ bs) =
      ((judgeAll judge c as).1 ++ (judgeAll judge (judgeAll judge c as).2.2 bs).1,
        (judgeAll judge (judgeAll judge c as).2.2 bs).2) := by
  induction as generalizing c with
  | nil => rfl
  | cons a as ih =>
    rcases hj : judge c a with ⟨problem | t, c'⟩
    · rw [judgeAll_error hj] at h
      cases h
    · rw [judgeAll_ok hj] at h
      rw [List.cons_append, judgeAll_ok hj, judgeAll_ok hj, ih h]
      rfl

end

namespace Reader

variable (r : Reader α β ε σ) (judge : γ → β → Except ε τ × γ) (c₀ : γ)

/-- The reader with the machine behind it. -/
def pipe : Reader α τ ε (σ × γ) where
  start := (r.start, c₀)
  extend s chunk := (r.extend s.1 chunk, s.2)
  next s :=
    match r.next s.1 with
    | (.error e, s') => (.error e, (s', s.2))
    | (.ok none, s') => (.ok none, (s', s.2))
    | (.ok (some b), s') =>
      match judge s.2 b with
      | (.error e, c) => (.error e, (s', c))
      | (.ok t, c) => (.ok (some t), (s', c))
  size s := r.size s.1
  lowers {s t s'} h := by
    split at h
    · cases h
    · cases h
    · next b s'' hn =>
      split at h
      · cases h
      · cases h
        exact r.lowers hn

variable {r judge c₀}

/-- What is left of a run once the machine has seen its records: the first problem met, and where no
record was turned down, the state of both. -/
def Piped (judge : γ → β → Except ε τ × γ) (c : γ) (records : List β × Option ε × σ)
    (out : List τ × Option ε × σ × γ) : Prop :=
  out.1 = (judgeAll judge c records.1).1 ∧
    out.2.1 = (judgeAll judge c records.1).2.1.or records.2.1 ∧
    ((judgeAll judge c records.1).2.1 = none →
      out.2.2 = (records.2.2, (judgeAll judge c records.1).2.2))

lemma pipe_drain (s : σ) (c : γ) :
    Piped judge c (r.drain s) ((r.pipe judge c₀).drain (s, c)) := by
  refine r.source.all_rule (fun s out t => ∀ c,
    Piped judge c (out, t) ((r.pipe judge c₀).drain (s, c))) ?_ ?_ s c
  · intro s t hp c
    -- the reader stops, and so does what it is piped into
    have hstop : (r.pipe judge c₀).source.pull (s, c) = .inr (t.1, t.2, c) := by
      simp only [source, pipe] at hp ⊢
      rcases hn : r.next s with ⟨e | _ | b, s'⟩
      · rw [hn] at hp
        cases hp
        rfl
      · rw [hn] at hp
        cases hp
        rfl
      · rw [hn] at hp
        cases hp
    rw [drain, Source.all_stop _ hstop]
    exact ⟨rfl, rfl, fun _ => rfl⟩
  · intro s b s' out t hp ih c
    have hn : r.next s = (.ok (some b), s') := by
      simp only [source] at hp
      rcases hn : r.next s with ⟨e | _ | b', s''⟩
      · rw [hn] at hp
        cases hp
      · rw [hn] at hp
        cases hp
      · rw [hn] at hp
        cases hp
        rfl
    rcases hj : judge c b with ⟨problem | item, c'⟩
    · have hstop : (r.pipe judge c₀).source.pull (s, c) = .inr (some problem, s', c') := by
        simp only [source, pipe, hn, hj]
      rw [drain, Source.all_stop _ hstop]
      refine ⟨?_, ?_, fun hnone => ?_⟩
      · rw [judgeAll_error hj]
      · rw [judgeAll_error hj]
        rfl
      · rw [judgeAll_error hj] at hnone
        cases hnone
    · have hitem : (r.pipe judge c₀).source.pull (s, c) = .inl (item, s', c') := by
        simp only [source, pipe, hn, hj]
      obtain ⟨hout, hproblem, hstate⟩ := ih c'
      rw [drain, Source.all_item _ hitem]
      refine ⟨?_, ?_, fun hnone => ?_⟩
      · rw [judgeAll_ok hj]
        exact congrArg (item :: ·) hout
      · rw [judgeAll_ok hj]
        exact hproblem
      · rw [judgeAll_ok hj] at hnone ⊢
        exact hstate hnone

/-- **Records that are judged as they arrive** are judged as they would be all together, and the
first problem met is the machine's, or else the reader's. -/
theorem pipe_feed (chunks : List (List α)) (s : σ) (c : γ) :
    Piped judge c (r.feed s chunks) ((r.pipe judge c₀).feed (s, c) chunks) := by
  induction chunks generalizing s c with
  | nil => exact ⟨rfl, rfl, fun _ => rfl⟩
  | cons chunk chunks ih =>
    have hdrain : Piped judge c (r.drain (r.extend s chunk))
        ((r.pipe judge c₀).drain (r.extend s chunk, c)) := pipe_drain _ _
    have hextend : (r.pipe judge c₀).extend (s, c) chunk = (r.extend s chunk, c) := rfl
    rw [feed, feed, hextend]
    rcases hd : r.drain (r.extend s chunk) with ⟨out, problem, s'⟩
    rcases hd' : (r.pipe judge c₀).drain (r.extend s chunk, c) with ⟨out', problem', s''⟩
    rw [hd, hd'] at hdrain
    obtain ⟨hout, hproblem, hstate⟩ := hdrain
    simp only at hout hproblem hstate
    cases hturned : (judgeAll judge c out).2.1 with
    | some e =>
      -- a record of this chunk is turned down: nothing behind it is looked at
      rw [hturned, Option.some_or] at hproblem
      subst hproblem
      have hkept : ∀ more, judgeAll judge c (out ++ more) = judgeAll judge c out :=
        judgeAll_append_some hturned
      cases problem with
      | some e' => exact ⟨hout, by rw [hturned]; rfl, fun hnone => by rw [hturned] at hnone; cases hnone⟩
      | none =>
        refine ⟨?_, ?_, fun hnone => ?_⟩
        · rw [hkept]
          exact hout
        · rw [hkept, hturned]
          rfl
        · rw [hkept, hturned] at hnone
          cases hnone
    | none =>
      rw [hturned, Option.none_or] at hproblem
      subst hproblem
      cases problem' with
      | some e => exact ⟨hout, by rw [hturned]; rfl, hstate⟩
      | none =>
        obtain rfl := hstate hturned
        obtain ⟨hout', hproblem', hstate'⟩ := ih s' (judgeAll judge c out).2.2
        have happend := judgeAll_append_none hturned (r.feed s' chunks).1
        refine ⟨?_, ?_, fun hnone => ?_⟩
        · rw [happend, ← hout', ← hout]
        · rw [happend]
          exact hproblem'
        · rw [happend] at hnone ⊢
          exact hstate' hnone

end Reader

end Masqr.Lib
