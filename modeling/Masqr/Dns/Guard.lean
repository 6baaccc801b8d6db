import Mathlib
import Masqr.Lib.RwLock
import Masqr.Lib.Run

/-!
The lock over the installed policy, and who waits for it.

A query is answered under a read guard: the policy is consulted, and the upstream asked,
before the guard is dropped. A policy is put in place under the write guard. An upstream may
take as long as it likes.
-/

namespace Masqr.Dns.Guard

open Masqr.Lib

/-- The lock, and which of its holders wait for their upstream's reply. -/
structure World where
  installed : RwLock ℕ
  asking : ℕ → Bool

def World.init : World := ⟨.free, fun _ => false⟩

/-- What a call does next: an answer asks for the read guard, begins to ask its upstream, gets
a reply, or leaves without asking; an install asks for the write guard, or puts its policy in
place. The guard is dropped where the call is done with it. -/
inductive Label
  | answer (t : ℕ)
  | ask (t : ℕ)
  | replied (t : ℕ)
  | refuse (t : ℕ)
  | install (t : ℕ)
  | put (t : ℕ)
  deriving DecidableEq

/-- Whether somebody who holds the lock, other than `t`, is not waiting for an upstream. -/
def World.busyBut (w : World) (t : ℕ) : Bool :=
  (w.installed.others t).any fun h => !w.asking h.1

/-- Whether somebody who holds the lock is not waiting for an upstream. -/
def World.busy (w : World) : Bool := w.installed.holders.any fun h => !w.asking h.1

def step (w : World) : Label → Option World
  | .answer t =>
    if t ∉ w.installed.known then some { w with installed := w.installed.request t .read } else none
  | .ask t =>
    if (t, Mode.read) ∈ w.installed.holders ∧ w.asking t = false then
      some { w with asking := Function.update w.asking t true }
    else none
  | .replied t =>
    if (t, Mode.read) ∈ w.installed.holders ∧ w.asking t = true then
      some ⟨w.installed.release t, Function.update w.asking t false⟩
    else none
  | .refuse t =>
    if (t, Mode.read) ∈ w.installed.holders ∧ w.asking t = false then
      some { w with installed := w.installed.release t }
    else none
  | .install t =>
    if t ∉ w.installed.known then some { w with installed := w.installed.request t .write }
    else none
  | .put t =>
    if (t, Mode.write) ∈ w.installed.holders then
      some { w with installed := w.installed.release t }
    else none

/-- Somebody waits for the lock while everybody who holds it waits for an upstream. -/
def Stalled (w : World) : Prop := w.installed.queue ≠ [] ∧ w.busy = false

instance : DecidablePred Stalled := fun _ => inferInstanceAs (Decidable (_ ∧ _))

/-- The condition on a step: an install asks for the lock only while it is free or somebody
holds it who is not waiting for an upstream; and who stops being such a holder, by asking an
upstream or by leaving others behind, does so only while nobody waits for the lock or while
there is another. -/
def timely (w : World) : Label → Bool
  | .install _ => w.installed.holders.isEmpty || w.busy
  | .ask t => w.installed.queue.isEmpty || w.busyBut t
  | .refuse t => w.installed.queue.isEmpty || w.busyBut t || (w.installed.others t).isEmpty
  | _ => true

/-- The lock is fair, and only readers that hold it ask an upstream. -/
structure Good (w : World) : Prop where
  fair : w.installed.Fair
  asking : ∀ t, w.asking t = true → (t, Mode.read) ∈ w.installed.holders

namespace Good

variable {w w' : World} {t : ℕ}

lemma init : Good .init := ⟨RwLock.fair_free, nofun⟩

lemma request (h : Good w) (mode : Mode) (ht : t ∉ w.installed.known) :
    Good { w with installed := w.installed.request t mode } := by
  refine ⟨h.fair.request mode ht, fun u hu => ?_⟩
  have hm := h.asking u hu
  unfold RwLock.request
  split_ifs
  · exact List.mem_append_left _ hm
  · exact hm

lemma release (h : Good w) (ht : w.asking t = false) :
    Good { w with installed := w.installed.release t } :=
  ⟨h.fair.release t, fun u hu => RwLock.mem_release (h.asking u hu)
    fun he => by rw [show u = t from he, ht] at hu; cases hu⟩

lemma writer_idle (h : Good w) (ht : (t, Mode.write) ∈ w.installed.holders) (u : ℕ) :
    w.asking u = false := by
  by_contra hu
  have hm := h.asking u (by simpa using hu)
  rw [h.fair.alone _ ht rfl, List.mem_singleton] at hm
  cases hm

/-- A call hands the lock on, and asks no upstream any more. -/
lemma silence (h : Good w) : Good ⟨w.installed.release t, Function.update w.asking t false⟩ := by
  refine ⟨h.fair.release t, fun u hu => ?_⟩
  have hut : u ≠ t := fun he => by subst he; simp at hu
  exact RwLock.mem_release (h.asking u (by simpa [hut] using hu)) hut

lemma step (h : Good w) {l : Label} (hs : step w l = some w') : Good w' := by
  cases l <;> simp only [Guard.step, Option.ite_none_right_eq_some, Option.some.injEq] at hs <;>
    obtain ⟨hc, rfl⟩ := hs
  case answer t => exact h.request .read hc
  case install t => exact h.request .write hc
  case ask t =>
    refine ⟨h.fair, fun u hu => ?_⟩
    by_cases hut : u = t
    · subst hut; exact hc.1
    · exact h.asking u (by simpa [hut] using hu)
  case replied t => exact h.silence
  case refuse t => exact h.release hc.2
  case put t => exact h.release (h.writer_idle hc t)

end Good

variable {w w' : World} {t : ℕ}

lemma not_stalled_iff : ¬Stalled w ↔ w.installed.queue = [] ∨ w.busy = true := by
  unfold Stalled
  rw [not_and_or, not_not, Bool.not_eq_false]

/-- Whoever is let in by the last one to leave waits for no upstream. -/
lemma Good.not_stalled_of_last (h : Good w) (ho : w.installed.others t = []) {asking : ℕ → Bool}
    (ha : ∀ u, u ≠ t → asking u = w.asking u) (ht : asking t = false) :
    ¬Stalled ⟨w.installed.release t, asking⟩ := by
  rw [not_stalled_iff]
  obtain ⟨h1, h2⟩ := RwLock.release_last ho
  by_cases hq : (w.installed.release t).queue = []
  · exact .inl hq
  · obtain ⟨g, hg⟩ := List.exists_mem_of_ne_nil _ (h1 hq)
    refine .inr (List.any_eq_true.mpr ⟨g, hg, ?_⟩)
    have hidle : asking g.1 = false := by
      by_cases hgt : g.1 = t
      · rw [hgt]; exact ht
      · rw [ha g.1 hgt]
        by_contra hasking
        exact h.fair.not_mem_queue (h.asking g.1 (by simpa using hasking)) (h2 g hg) rfl
    simp [hidle]

lemma mem_others {l : RwLock ℕ} {g : ℕ × Mode} : g ∈ l.others t ↔ g ∈ l.holders ∧ g.1 ≠ t := by
  simp [RwLock.others]

lemma World.busy_iff : w.busy = true ↔ ∃ g ∈ w.installed.holders, w.asking g.1 = false := by
  simp [World.busy]

lemma World.busyBut_iff : w.busyBut t = true ↔
    ∃ g ∈ w.installed.holders, g.1 ≠ t ∧ w.asking g.1 = false := by
  simp [World.busyBut, mem_others, and_assoc]

/-- One of several readers leaves: nobody is let in, and the others hold the lock as before. -/
lemma Good.release_readers (h : Good w) (ht : (t, Mode.read) ∈ w.installed.holders)
    (ho : w.installed.others t ≠ []) {asking : ℕ → Bool}
    (ha : ∀ u, u ≠ t → asking u = w.asking u) :
    ¬Stalled ⟨w.installed.release t, asking⟩ ↔ w.installed.queue = [] ∨ w.busyBut t = true := by
  rw [not_stalled_iff, RwLock.release_others h.fair ho (h.fair.all_read ht)]
  refine or_congr Iff.rfl ?_
  rw [World.busy_iff, World.busyBut_iff]
  constructor
  · rintro ⟨g, hg, hidle⟩
    have hg' := mem_others.mp hg
    exact ⟨g, hg'.1, hg'.2, by rw [← ha g.1 hg'.2]; exact hidle⟩
  · rintro ⟨g, hg, hgt, hidle⟩
    exact ⟨g, mem_others.mpr ⟨hg, hgt⟩, by rw [← hidle]; exact ha g.1 hgt⟩

/-- An answer that comes for the guard stalls nothing. -/
lemma not_stalled_answer (h : Good w) (hn : ¬Stalled w) :
    ¬Stalled { w with installed := w.installed.request t .read } := by
  rw [not_stalled_iff] at hn ⊢
  unfold RwLock.request
  split_ifs with hc
  · exact .inl hc.1
  · right
    rcases hn with hq | hb
    · obtain ⟨g, hg, hw⟩ : ∃ g ∈ w.installed.holders, g.2 ≠ .read := by
        simpa [hq, RwLock.admits] using hc
      have hwrite : g = (g.1, Mode.write) := by
        cases hm : g.2 with
        | read => exact absurd hm hw
        | write => rw [← hm]
      rw [World.busy_iff]
      exact ⟨g, hg, h.writer_idle (hwrite ▸ hg) g.1⟩
    · exact hb

/-- An install that comes for the guard stalls the lock when all who hold it are asking. -/
lemma not_stalled_install (h : Good w) :
    ¬Stalled { w with installed := w.installed.request t .write } ↔
      timely w (.install t) = true := by
  simp only [timely, Bool.or_eq_true, List.isEmpty_iff]
  by_cases hh : w.installed.holders = []
  · have hq : w.installed.queue = [] := by
      by_contra hq
      obtain ⟨next, queue, hq⟩ := List.exists_cons_of_ne_nil hq
      have hb := h.fair.blocked next (by rw [hq]; rfl)
      rw [hh] at hb
      revert hb
      cases next.2 <;> simp [RwLock.admits]
    have hc : w.installed.queue = [] ∧ RwLock.admits w.installed.holders .write = true :=
      ⟨hq, by rw [hh]; rfl⟩
    refine iff_of_true (not_stalled_iff.mpr (.inl ?_)) (.inl hh)
    unfold RwLock.request
    rw [if_pos hc]
    exact hq
  · have hc : ¬(w.installed.queue = [] ∧ RwLock.admits w.installed.holders .write = true) :=
      fun hc => hh (List.isEmpty_iff.mp hc.2)
    rw [not_stalled_iff]
    unfold RwLock.request
    rw [if_neg hc]
    simp [hh, World.busy]

/-- **A step stalls the lock exactly when it is not timely.** -/
theorem stalled_step_iff (h : Good w) (hn : ¬Stalled w) {l : Label} (hs : step w l = some w') :
    ¬Stalled w' ↔ timely w l = true := by
  cases l <;> simp only [Guard.step, Option.ite_none_right_eq_some, Option.some.injEq] at hs <;>
    obtain ⟨hc, rfl⟩ := hs
  case answer t => exact iff_of_true (not_stalled_answer h hn) rfl
  case install t => exact not_stalled_install h
  case ask t =>
    rw [not_stalled_iff, World.busy_iff]
    simp only [timely, Bool.or_eq_true, List.isEmpty_iff, World.busyBut_iff]
    refine or_congr Iff.rfl (exists_congr fun g => and_congr_right fun _ => ?_)
    by_cases hg : g.1 = t <;> simp [hg]
  case replied t =>
    refine iff_of_true ?_ rfl
    have ha : ∀ u, u ≠ t → Function.update w.asking t false u = w.asking u :=
      fun u hu => Function.update_of_ne hu _ _
    by_cases ho : w.installed.others t = []
    · exact h.not_stalled_of_last ho ha (Function.update_self ..)
    · rw [h.release_readers hc.1 ho ha]
      rcases not_stalled_iff.mp hn with hq | hb
      · exact .inl hq
      · obtain ⟨g, hg, hidle⟩ := World.busy_iff.mp hb
        refine .inr (World.busyBut_iff.mpr ⟨g, hg, fun he => ?_, hidle⟩)
        rw [he, hc.2] at hidle
        cases hidle
  case refuse t =>
    simp only [timely, Bool.or_eq_true, List.isEmpty_iff]
    by_cases ho : w.installed.others t = []
    · exact iff_of_true (h.not_stalled_of_last ho (fun _ _ => rfl) hc.2) (.inr ho)
    · rw [h.release_readers hc.1 ho fun _ _ => rfl]
      simp [ho]
  case put t =>
    refine iff_of_true (h.not_stalled_of_last ?_ (fun _ _ => rfl) (h.writer_idle hc t)) rfl
    unfold RwLock.others
    rw [h.fair.alone _ hc rfl]
    simp

/-- **No state of a run is stalled exactly when every step of the run is timely.** -/
theorem never_stalled_iff {labels : List Label} (h : run step .init labels = some w) :
    (∀ taken, taken <+: labels → ∀ w', run step .init taken = some w' → ¬Stalled w') ↔
      Meets step (fun w l => timely w l = true) .init labels :=
  Meets.iff_prefixes (fun _ _ _ hg => hg.step) (fun _ _ _ hg hn hs => stalled_step_iff hg hn hs)
    .init (by decide) h

/-- An answer that has consulted the policy leaves, and an install takes its place. -/
theorem never_stalled_hand_over :
    (∀ taken, taken <+: [.answer 0, .ask 0, .replied 0, .install 1, .answer 2, .put 1, .ask 2] →
      ∀ w', run step .init taken = some w' → ¬Stalled w') ∧
    Meets step (fun w l => timely w l = true) .init
      [.answer 0, .ask 0, .replied 0, .install 1, .answer 2, .put 1, .ask 2] :=
  ⟨(never_stalled_iff (w := ⟨⟨[(2, .read)], []⟩, _⟩) rfl).mpr (by decide), by decide⟩

/-- One answer asks its upstream, an install comes for the lock, and so does a second answer:
both wait, and the only holder waits for its upstream. -/
theorem install_waits_for_upstream :
    ∃ w, run step .init [.answer 0, .ask 0, .install 1, .answer 2] = some w ∧
      w.installed.queue = [(1, .write), (2, .read)] ∧ Stalled w :=
  ⟨_, rfl, rfl, by decide⟩

end Masqr.Dns.Guard
