import Mathlib.Data.List.Basic
import Mathlib.Data.List.Nodup

/-!
A fair lock for many readers or one writer.

Who asks for it waits behind everyone who asked before and still waits, a reader behind a
waiting writer too. Who lets go of it hands it to as many at the front of the queue as can
hold it together.
-/

namespace Masqr.Lib

inductive Mode | read | write
  deriving DecidableEq

/-- The lock: who holds it, and who waits for it, in order. -/
structure RwLock (ι : Type*) where
  holders : List (ι × Mode)
  queue : List (ι × Mode)

namespace RwLock

variable {ι : Type*}

def free : RwLock ι := ⟨[], []⟩

/-- Whether one more may hold the lock in this mode. -/
def admits (holders : List (ι × Mode)) : Mode → Bool
  | .read => holders.all fun h => decide (h.2 = .read)
  | .write => holders.isEmpty

/-- Let in from the front of the queue as many as the lock admits. -/
def grant : List (ι × Mode) → List (ι × Mode) → RwLock ι
  | holders, [] => ⟨holders, []⟩
  | holders, next :: queue =>
    if admits holders next.2 then grant (holders ++ [next]) queue else ⟨holders, next :: queue⟩

def request (l : RwLock ι) (t : ι) (mode : Mode) : RwLock ι :=
  if l.queue = [] ∧ admits l.holders mode = true then
    { l with holders := l.holders ++ [(t, mode)] }
  else { l with queue := l.queue ++ [(t, mode)] }

/-- Everyone the lock knows. -/
def known (l : RwLock ι) : List ι := (l.holders ++ l.queue).map Prod.fst

/-- A writer holds the lock alone, the one at the front of the queue cannot be let in, and
nobody is there twice. -/
structure Fair (l : RwLock ι) : Prop where
  alone : ∀ h ∈ l.holders, h.2 = .write → l.holders = [h]
  blocked : ∀ next ∈ l.queue.head?, admits l.holders next.2 = false
  once : l.known.Nodup

lemma fair_free : Fair (free : RwLock ι) := ⟨nofun, nofun, List.nodup_nil⟩

lemma grant_known (holders queue : List (ι × Mode)) :
    (grant holders queue).known = (holders ++ queue).map Prod.fst := by
  induction queue generalizing holders with
  | nil => rfl
  | cons next queue ih =>
    unfold grant
    split_ifs
    · rw [ih, List.append_assoc, List.singleton_append]
    · rfl

lemma alone_snoc {holders : List (ι × Mode)} (h : ∀ h ∈ holders, h.2 = .write → holders = [h])
    {next : ι × Mode} (ha : admits holders next.2 = true) :
    ∀ h ∈ holders ++ [next], h.2 = .write → holders ++ [next] = [h] := by
  obtain ⟨t, mode⟩ := next
  cases mode with
  | read =>
    simp only [admits, List.all_eq_true, decide_eq_true_eq] at ha
    intro g hg hw
    rcases List.mem_append.mp hg with hg | hg
    · rw [ha g hg] at hw; cases hw
    · rw [List.mem_singleton.mp hg] at hw; cases hw
  | write =>
    obtain rfl := List.isEmpty_iff.mp ha
    intro g hg _
    rw [List.nil_append] at hg ⊢
    rw [List.mem_singleton.mp hg]

lemma fair_grant {holders queue : List (ι × Mode)}
    (h : ∀ h ∈ holders, h.2 = .write → holders = [h])
    (hn : ((holders ++ queue).map Prod.fst).Nodup) : Fair (grant holders queue) := by
  induction queue generalizing holders with
  | nil => exact ⟨h, nofun, by rw [grant_known]; exact hn⟩
  | cons next queue ih =>
    unfold grant
    split_ifs with ha
    · exact ih (alone_snoc h ha) (by rwa [List.append_assoc, List.singleton_append])
    · refine ⟨h, fun next' hn' => ?_, hn⟩
      obtain rfl : next = next' := by simpa using hn'
      exact Bool.not_eq_true _ ▸ ha

lemma Fair.request {l : RwLock ι} (h : Fair l) {t : ι} (mode : Mode) (ht : t ∉ l.known) :
    Fair (l.request t mode) := by
  unfold known at ht
  have hn := h.once
  unfold known at hn
  unfold RwLock.request
  split_ifs with hc
  · refine ⟨alone_snoc h.alone hc.2, by simp [hc.1], ?_⟩
    simp only [known, hc.1, List.append_nil, List.map_append] at ht hn ⊢
    refine List.nodup_append.mpr ⟨hn, by simp, ?_⟩
    rintro a ha b hb rfl
    simp only [List.map_cons, List.map_nil, List.mem_singleton] at hb
    exact ht (hb ▸ ha)
  · refine ⟨h.alone, fun next hnext => ?_, ?_⟩
    · cases hq : l.queue with
      | nil =>
        rw [hq] at hnext hc
        obtain rfl : (t, mode) = next := by simpa using hnext
        simpa using hc
      | cons first queue =>
        rw [hq] at hnext
        exact h.blocked next (by rw [hq]; simpa using hnext)
    · simp only [known, ← List.append_assoc]
      rw [List.map_append]
      refine List.nodup_append.mpr ⟨hn, by simp, ?_⟩
      rintro a ha b hb rfl
      simp only [List.map_cons, List.map_nil, List.mem_singleton] at hb
      exact ht (hb ▸ ha)

variable [DecidableEq ι]

/-- Who else holds the lock. -/
def others (l : RwLock ι) (t : ι) : List (ι × Mode) := l.holders.filter fun h => decide (h.1 ≠ t)

def release (l : RwLock ι) (t : ι) : RwLock ι := grant (l.others t) l.queue

lemma Fair.release {l : RwLock ι} (h : Fair l) (t : ι) : Fair (l.release t) := by
  refine fair_grant (fun g hg hw => ?_) ?_
  · have hm := List.mem_of_mem_filter hg
    have hall := h.alone g hm hw
    unfold others at hg ⊢
    rw [hall] at hg ⊢
    rw [List.filter_cons] at hg ⊢
    split_ifs at hg ⊢ with hc
    · rfl
    · simp at hg
  · refine h.once.sublist (List.Sublist.map _ ?_)
    exact List.Sublist.append List.filter_sublist (List.Sublist.refl _)

omit [DecidableEq ι] in
lemma grant_holders (holders queue : List (ι × Mode)) :
    holders ⊆ (grant holders queue).holders := by
  induction queue generalizing holders with
  | nil => exact List.Subset.refl _
  | cons next queue ih =>
    unfold grant
    split_ifs
    · exact List.Subset.trans (List.subset_append_left _ _) (ih _)
    · exact List.Subset.refl _

/-- The others still hold the lock when one lets go of it. -/
lemma mem_release {l : RwLock ι} {t : ι} {g : ι × Mode} (hg : g ∈ l.holders) (ht : g.1 ≠ t) :
    g ∈ (l.release t).holders :=
  grant_holders _ _ (List.mem_filter.mpr ⟨hg, decide_eq_true ht⟩)

omit [DecidableEq ι] in
/-- Where a reader holds the lock, all who hold it are readers. -/
lemma Fair.all_read {l : RwLock ι} (h : Fair l) {t : ι} (ht : (t, Mode.read) ∈ l.holders) :
    ∀ g ∈ l.holders, g.2 = .read := fun g hg => by
  cases hm : g.2 with
  | read => rfl
  | write =>
    rw [h.alone g hg hm, List.mem_singleton] at ht
    rw [← ht] at hm
    cases hm

omit [DecidableEq ι] in
/-- Nobody both holds the lock and waits for it. -/
lemma Fair.not_mem_queue {l : RwLock ι} (h : Fair l) {g q : ι × Mode} (hg : g ∈ l.holders)
    (hq : q ∈ l.queue) : g.1 ≠ q.1 := by
  have hn := h.once
  unfold known at hn
  rw [List.map_append, List.nodup_append] at hn
  exact hn.2.2 g.1 (List.mem_map_of_mem hg) q.1 (List.mem_map_of_mem hq)

/-- Where another reader still holds the lock, letting go of it lets nobody in. -/
lemma release_others {l : RwLock ι} (h : Fair l) {t : ι} (ho : l.others t ≠ [])
    (hr : ∀ g ∈ l.holders, g.2 = .read) : l.release t = ⟨l.others t, l.queue⟩ := by
  unfold release
  cases hq : l.queue with
  | nil => rfl
  | cons next queue =>
    have hb := h.blocked next (by rw [hq]; rfl)
    unfold grant
    rw [if_neg]
    obtain ⟨u, mode⟩ := next
    cases mode with
    | read =>
      simp only [admits] at hb
      rw [List.all_eq_true.mpr fun g hg => decide_eq_true (hr g hg)] at hb
      cases hb
    | write =>
      simp only [admits, List.isEmpty_iff]
      exact ho

/-- Who holds the lock after the last holder let go was waiting for it. -/
lemma release_last {l : RwLock ι} {t : ι} (ho : l.others t = []) :
    ((l.release t).queue ≠ [] → (l.release t).holders ≠ []) ∧
      ∀ g ∈ (l.release t).holders, g ∈ l.queue := by
  have hgrant : ∀ holders queue : List (ι × Mode), ∀ g ∈ (grant holders queue).holders,
      g ∈ holders ++ queue := by
    intro holders queue
    induction queue generalizing holders with
    | nil => intro g hg; simpa [grant] using hg
    | cons next queue ih =>
      intro g hg
      unfold grant at hg
      split_ifs at hg
      · simpa using ih _ g hg
      · exact List.mem_append_left _ hg
  have hkeep : ∀ holders queue : List (ι × Mode), holders ≠ [] →
      (grant holders queue).holders ≠ [] := by
    intro holders queue
    induction queue generalizing holders with
    | nil => exact fun h => h
    | cons next queue ih =>
      intro h
      unfold grant
      split_ifs
      · exact ih _ (by simp)
      · exact h
  unfold release
  rw [ho]
  refine ⟨fun hq => ?_, fun g hg => by simpa using hgrant [] l.queue g hg⟩
  cases hl : l.queue with
  | nil => rw [hl] at hq; exact absurd rfl hq
  | cons next queue =>
    unfold grant
    have ha : admits ([] : List (ι × Mode)) next.2 = true := by cases next.2 <;> rfl
    rw [if_pos ha]
    exact hkeep _ _ (by simp)

end RwLock

end Masqr.Lib
