import Mathlib
import Masqr.Lib.Loop

/-!
Streams read record by record, whole or in the pieces they arrive in.

A framing says what is at the front of a stream. A reader is handed a stream in pieces and
keeps what it cannot use yet. What a reader has still to say depends only on the bytes
ahead of it, so the places where a stream is cut do not matter.
-/

namespace Masqr.Lib

/-- Something that gives items one at a time and then stops. -/
structure Source (σ β τ : Type*) where
  pull : σ → (β × σ) ⊕ τ
  size : σ → ℕ
  lowers : ∀ {s b s'}, pull s = .inl (b, s') → size s' < size s

namespace Source

variable {σ β τ : Type*} (p : Source σ β τ)

def loop : Loop (List β × σ) (List β × τ) where
  body s :=
    match p.pull s.2 with
    | .inl (b, next) => .inl (s.1 ++ [b], next)
    | .inr t => .inr (s.1, t)
  measure s := p.size s.2
  lowers {s s'} h := by
    split at h
    · next hp => cases h; exact p.lowers hp
    · cases h

/-- All the items from `s` on, and what comes after the last. -/
def all (s : σ) : List β × τ := p.loop.run ([], s)

lemma loop_run (out : List β) (s : σ) :
    p.loop.run (out, s) = (out ++ (p.all s).1, (p.all s).2) := by
  induction hn : p.size s using Nat.strongRecOn generalizing out s with
  | _ n ih =>
    cases hp : p.pull s with
    | inr t =>
      have hbody : ∀ out : List β, p.loop.body (out, s) = .inr (out, t) := fun out => by
        simp only [loop, hp]
      rw [all, p.loop.run_stop (hbody out), p.loop.run_stop (hbody [])]
      simp
    | inl next =>
      obtain ⟨b, s'⟩ := next
      have hbody : ∀ out : List β, p.loop.body (out, s) = .inl (out ++ [b], s') := fun out => by
        simp only [loop, hp]
      have hlt : p.size s' < n := hn ▸ p.lowers hp
      rw [all, p.loop.run_step (hbody out), p.loop.run_step (hbody []),
        ih _ hlt (out ++ [b]) s' rfl, ih _ hlt ([] ++ [b]) s' rfl]
      simp

lemma all_stop {s : σ} {t : τ} (h : p.pull s = .inr t) : p.all s = ([], t) :=
  p.loop.run_stop (by simp only [loop, h])

lemma all_item {s s' : σ} {b : β} (h : p.pull s = .inl (b, s')) :
    p.all s = (b :: (p.all s').1, (p.all s').2) := by
  have hbody : p.loop.body ([], s) = .inl ([b], s') := by simp only [loop, h, List.nil_append]
  rw [all, p.loop.run_step hbody, loop_run]
  rfl

/-- **The rule of sources**: what holds where a source stops, and is handed back by an item
given, holds of all that is given. -/
theorem all_rule (R : σ → List β → τ → Prop) (hstop : ∀ s t, p.pull s = .inr t → R s [] t)
    (hitem : ∀ s b s' out t, p.pull s = .inl (b, s') → R s' out t → R s (b :: out) t) (s : σ) :
    R s (p.all s).1 (p.all s).2 := by
  induction hn : p.size s using Nat.strongRecOn generalizing s with
  | _ n ih =>
    cases hp : p.pull s with
    | inr t =>
      rw [p.all_stop hp]
      exact hstop s t hp
    | inl next =>
      obtain ⟨b, s'⟩ := next
      rw [p.all_item hp]
      exact hitem s b s' _ _ hp (ih _ (hn ▸ p.lowers hp) s' rfl)

end Source

/-! ### Whole streams -/

/-- What a stream has at its front: a record and what follows it, or no whole record, or a
problem no further byte mends. -/
structure Framing (α β ε : Type*) where
  take : List α → Except ε (Option (β × List α))
  shrinks : ∀ {s b rest}, take s = .ok (some (b, rest)) → rest.length < s.length

namespace Framing

variable {α β ε : Type*} (f : Framing α β ε)

def source : Source (List α) β (Option ε) where
  pull s :=
    match f.take s with
    | .ok (some item) => .inl item
    | .ok none => .inr none
    | .error e => .inr (some e)
  size := List.length
  lowers {s b s'} h := by
    split at h
    · next hf => cases h; exact f.shrinks hf
    · cases h
    · cases h

/-- The records of a whole stream, and the problem it ends in, if any. -/
def parse (s : List α) : List β × Option ε := f.source.all s

variable {f} {s rest : List α} {b : β} {e : ε}

lemma parse_more (h : f.take s = .ok none) : f.parse s = ([], none) :=
  f.source.all_stop (by simp only [source, h])

lemma parse_fail (h : f.take s = .error e) : f.parse s = ([], some e) :=
  f.source.all_stop (by simp only [source, h])

lemma parse_item (h : f.take s = .ok (some (b, rest))) :
    f.parse s = (b :: (f.parse rest).1, (f.parse rest).2) :=
  f.source.all_item (by simp only [source, h])

end Framing

/-! ### Streams in pieces -/

/-- What a stream is handed to piece by piece, and asked for the next record after each. -/
structure Reader (α β ε σ : Type*) where
  start : σ
  extend : σ → List α → σ
  next : σ → Except ε (Option β) × σ
  size : σ → ℕ
  lowers : ∀ {s b s'}, next s = (.ok (some b), s') → size s' < size s

namespace Reader

variable {α β ε σ : Type*} (r : Reader α β ε σ)

def source : Source σ β (Option ε × σ) where
  pull s :=
    match r.next s with
    | (.ok (some b), s') => .inl (b, s')
    | (.ok none, s') => .inr (none, s')
    | (.error e, s') => .inr (some e, s')
  size := r.size
  lowers {s b s'} h := by
    split at h
    · next hn => cases h; exact r.lowers hn
    · cases h
    · cases h

/-- Asked until it has no record: the records, the problem met, and the state it is left in. -/
def drain (s : σ) : List β × Option ε × σ := r.source.all s

/-- Handed the pieces one by one and drained after each, until a problem is met. -/
def feed : σ → List (List α) → List β × Option ε × σ
  | s, [] => ([], none, s)
  | s, chunk :: chunks =>
    match r.drain (r.extend s chunk) with
    | (out, some e, s') => (out, some e, s')
    | (out, none, s') => (out ++ (feed s' chunks).1, (feed s' chunks).2)

variable {r} {s s' : σ} {b : β} {e : ε}

lemma drain_fail (h : r.next s = (.error e, s')) : r.drain s = ([], some e, s') :=
  r.source.all_stop (by simp only [source, h])

/-- A drain that met no problem ends where the reader asks for more. -/
lemma drain_ends (s : σ) : (r.drain s).2.1 = none →
    ∃ before, r.next before = (.ok none, (r.drain s).2.2) := by
  refine r.source.all_rule (fun _ _ t => t.1 = none → ∃ before, r.next before = (.ok none, t.2))
    ?_ (fun _ _ _ _ _ _ ih => ih) s
  intro s t hp ht
  simp only [source] at hp
  split at hp
  · cases hp
  · next hn => cases hp; exact ⟨s, hn⟩
  · cases hp; cases ht

/-- So does the last of the drains, where none met a problem. -/
lemma feed_ends (chunks : List (List α)) (hne : chunks ≠ []) (s : σ) :
    (r.feed s chunks).2.1 = none → ∃ before, r.next before = (.ok none, (r.feed s chunks).2.2) := by
  induction chunks generalizing s with
  | nil => exact absurd rfl hne
  | cons chunk chunks ih =>
    intro hnone
    have hends := r.drain_ends (r.extend s chunk)
    rw [feed] at hnone ⊢
    split at hnone
    · cases hnone
    · next out s' hd =>
      rw [hd] at hends
      obtain _ | ⟨chunk', chunks⟩ := chunks
      · exact hends rfl
      · exact ih (by simp) s' hnone

/-- A reader gives the records of whole streams: `ahead` is what there is still to read, once
later bytes have arrived. -/
structure Follows (r : Reader α β ε σ) (records : List α → List β × Option ε)
    (ahead : σ → List α → List α) : Prop where
  start : records (ahead r.start []) = ([], none)
  extend : ∀ s chunk later, ahead (r.extend s chunk) later = ahead s (chunk ++ later)
  item : ∀ {s b s'}, r.next s = (.ok (some b), s') → ∀ later,
    records (ahead s later) = (b :: (records (ahead s' later)).1, (records (ahead s' later)).2)
  more : ∀ {s s'}, r.next s = (.ok none, s') → ∀ later,
    records (ahead s later) = records (ahead s' later)
  idle : ∀ {s s'}, r.next s = (.ok none, s') → records (ahead s' []) = ([], none)
  fail : ∀ {s e s'}, r.next s = (.error e, s') → ∀ later, records (ahead s later) = ([], some e)

variable {records : List α → List β × Option ε} {ahead : σ → List α → List α}

lemma Follows.drain (h : r.Follows records ahead) (s : σ) (later : List α) :
    records (ahead s later) =
      match r.drain s with
      | (out, some e, _) => (out, some e)
      | (out, none, s') => (out ++ (records (ahead s' later)).1, (records (ahead s' later)).2) := by
  refine r.source.all_rule (fun s out t => records (ahead s later) =
    match (out, t) with
    | (out, some e, _) => (out, some e)
    | (out, none, s') => (out ++ (records (ahead s' later)).1, (records (ahead s' later)).2)) ?_ ?_ s
  · intro s t hp
    simp only [source] at hp
    split at hp
    · cases hp
    · next hn => cases hp; simpa using h.more hn later
    · next hn => cases hp; simpa using h.fail hn later
  · intro s b s' out t hp ih
    have hn : r.next s = (.ok (some b), s') := by
      simp only [source] at hp
      split at hp
      · next hn => cases hp; exact hn
      · cases hp
      · cases hp
    rw [h.item hn later, ih]
    obtain ⟨_ | e, s''⟩ := t <;> simp

lemma Follows.feed_from (h : r.Follows records ahead) (chunks : List (List α)) (s : σ)
    (hidle : records (ahead s []) = ([], none)) :
    ((r.feed s chunks).1, (r.feed s chunks).2.1) = records (ahead s chunks.flatten) := by
  induction chunks generalizing s with
  | nil => rw [List.flatten_nil, hidle]; rfl
  | cons chunk chunks ih =>
    have hall := h.drain (r.extend s chunk) chunks.flatten
    have hends := r.drain_ends (r.extend s chunk)
    rw [h.extend] at hall
    rw [List.flatten_cons, hall, feed]
    split
    · rfl
    · next out s' hd =>
      rw [hd] at hends
      obtain ⟨before, hn⟩ := hends rfl
      rw [← ih s' (h.idle hn)]

/-- **Where a stream is cut does not matter**: the records of the pieces, and the problem met,
are those of the whole stream. -/
theorem Follows.feed (h : r.Follows records ahead) (chunks : List (List α)) :
    ((r.feed r.start chunks).1, (r.feed r.start chunks).2.1) =
      records (ahead r.start chunks.flatten) :=
  h.feed_from chunks r.start h.start

end Reader

end Masqr.Lib
