import Mathlib
import Masqr.Lib.Run
import Masqr.Net
import Masqr.Time

/-!
The line's address for each destination asked about.

The table of them is locked to look into it and to insert, and not while the routing table is
walked; so calls for one destination pass each other, and the line changes under them.
-/

namespace Masqr.Core.Lines

open Masqr.Lib

/-- How long a looked-up line address is trusted when the line has not been seen to change. -/
def LINE_SOURCE_TTL : Duration := Duration.secs 30

/-- One looked-up line address: for which line, when, and what was found. -/
structure LineSource where
  line : ℕ
  time : Instant
  source : Option IpAddr

/-- Where a call of `line_source` stands: it has counted the line changes, read the clock,
found nothing current, begun to walk the routing table, ended the walk; or it has returned
what the table of addresses had, or what its own walk found. -/
inductive Pc
  | counted (destination : IpAddr) (line : ℕ)
  | timed (destination : IpAddr) (line : ℕ) (now : Instant)
  | missed (destination : IpAddr) (line : ℕ) (now : Instant)
  | walking (destination : IpAddr) (line : ℕ) (now : Instant)
  | walked (destination : IpAddr) (line : ℕ) (now : Instant) (source : Option IpAddr)
  | served (destination : IpAddr) (source : Option IpAddr)
  | answered (destination : IpAddr) (source : Option IpAddr)

/-- The line changes counted, the clock, the addresses looked up, and every call so far. -/
structure World where
  line : ℕ
  clock : Instant
  sources : IpAddr → Option LineSource
  calls : List Pc

def World.start : World := ⟨0, 0, fun _ => none, []⟩

inductive Label
  | lineChanged
  | wait (span : Duration)
  | call (destination : IpAddr)
  | readClock (c : ℕ)
  | look (c : ℕ)
  | walk (c : ℕ)
  | found (c : ℕ) (source : Option IpAddr)
  | insert (c : ℕ)

def World.put (w : World) (c : ℕ) (pc : Pc) : World := { w with calls := w.calls.set c pc }

/-- What a call does under the first lock. -/
def World.look (w : World) (destination : IpAddr) (line : ℕ) (now : Instant) : Pc :=
  match w.sources destination with
  | some known =>
    if known.line = line ∧ now.since known.time < LINE_SOURCE_TTL then
      .served destination known.source
    else .missed destination line now
  | none => .missed destination line now

/-- One step of one call, or of what goes on around them. -/
def step (w : World) : Label → Option World
  | .lineChanged => some { w with line := w.line + 1 }
  | .wait span => some { w with clock := w.clock + span }
  | .call destination => some { w with calls := w.calls ++ [.counted destination w.line] }
  | .readClock c =>
    match w.calls[c]? with
    | some (.counted destination line) => some (w.put c (.timed destination line w.clock))
    | _ => none
  | .look c =>
    match w.calls[c]? with
    | some (.timed destination line now) => some (w.put c (w.look destination line now))
    | _ => none
  | .walk c =>
    match w.calls[c]? with
    | some (.missed destination line now) => some (w.put c (.walking destination line now))
    | _ => none
  | .found c source =>
    match w.calls[c]? with
    | some (.walking destination line now) => some (w.put c (.walked destination line now source))
    | _ => none
  | .insert c =>
    match w.calls[c]? with
    | some (.walked destination line now source) =>
      some { w.put c (.answered destination source) with
        sources := Function.update w.sources destination (some ⟨line, now, source⟩) }
    | _ => none

/-! ### What a run has behind it -/

/-- The call was made in the state, for the destination. -/
def Made (as : List Label) (c : ℕ) (destination : IpAddr) (s : World) : Prop :=
  Took step .start as (.call destination) s ∧ s.calls.length = c

/-- The call began to walk in the state, for the destination, and found the address. -/
structure Walked (as : List Label) (c : ℕ) (destination : IpAddr) (source : Option IpAddr)
    (w : World) : Prop where
  began : Took step .start as (.walk c) w
  about : ∃ line now, w.calls[c]? = some (.missed destination line now)
  ended : .found c source ∈ as

/-- The call counted the line changes as it was made, and read the clock no earlier. -/
def Stamp (as : List Label) (c : ℕ) (destination : IpAddr) (line : ℕ) (now : Instant) : Prop :=
  ∃ s, Made as c destination s ∧ s.line = line ∧ s.clock ≤ now

/-- A walk of the call for the destination began no earlier than a stamp. -/
def Begun (as : List Label) (c : ℕ) (destination : IpAddr) (line : ℕ) (now : Instant) : Prop :=
  ∃ w, Took step .start as (.walk c) w ∧
    (∃ line now, w.calls[c]? = some (.missed destination line now)) ∧ line ≤ w.line ∧ now ≤ w.clock

/-- The address was found by a walk that began after the last line change counted when the call
was made, and less than the time to live before it. -/
def Current (as : List Label) (c : ℕ) (destination : IpAddr) (source : Option IpAddr) : Prop :=
  ∃ s w c', Made as c destination s ∧ Walked as c' destination source w ∧ s.line ≤ w.line ∧
    s.clock < w.clock + LINE_SOURCE_TTL

/-- What is so of a call where the line has changed so often and the clock says so much. -/
def Holds (as : List Label) (changes : ℕ) (clock : Instant) (c : ℕ) : Pc → Prop
  | .counted destination line => Stamp as c destination line clock ∧ line ≤ changes
  | .timed destination line now => Stamp as c destination line now ∧ line ≤ changes ∧ now ≤ clock
  | .missed _ line now => line ≤ changes ∧ now ≤ clock
  | .walking destination line now => Begun as c destination line now
  | .walked destination line now source => Begun as c destination line now ∧ .found c source ∈ as
  | .served destination source => Current as c destination source
  | .answered _ _ => True

/-- Every call is where it may be, and every address held was found by a walk begun no earlier
than its stamp. -/
structure Inv (as : List Label) (t : World) : Prop where
  calls : ∀ c pc, t.calls[c]? = some pc → Holds as t.line t.clock c pc
  sources : ∀ destination known, t.sources destination = some known →
    ∃ c, Begun as c destination known.line known.time ∧ .found c known.source ∈ as

variable {as : List Label} {t t' : World} {c : ℕ} {destination : IpAddr} {line : ℕ} {now : Instant}
  {source : Option IpAddr}

/-! ### What was so stays so -/

lemma Stamp.snoc (h : Stamp as c destination line now) {now' : Instant} (hle : now ≤ now')
    (a : Label) : Stamp (as ++ [a]) c destination line now' := by
  obtain ⟨s, ⟨hmade, hlen⟩, hline, hclock⟩ := h
  exact ⟨s, ⟨hmade.append _, hlen⟩, hline, hclock.trans hle⟩

lemma Begun.snoc (h : Begun as c destination line now) (a : Label) :
    Begun (as ++ [a]) c destination line now := by
  obtain ⟨w, hwalk, habout⟩ := h
  exact ⟨w, hwalk.append _, habout⟩

lemma Current.snoc (h : Current as c destination source) (a : Label) :
    Current (as ++ [a]) c destination source := by
  obtain ⟨s, w, c', ⟨hmade, hlen⟩, hwalk, hcurrent⟩ := h
  exact ⟨s, w, c', ⟨hmade.append _, hlen⟩,
    ⟨hwalk.began.append _, hwalk.about, List.mem_append_left _ hwalk.ended⟩, hcurrent⟩

lemma Holds.snoc {pc : Pc} {changes changes' : ℕ} {clock clock' : Instant}
    (h : Holds as changes clock c pc) (hline : changes ≤ changes') (hclock : clock ≤ clock')
    (a : Label) : Holds (as ++ [a]) changes' clock' c pc := by
  cases pc with
  | counted => exact ⟨h.1.snoc hclock a, h.2.trans hline⟩
  | timed => exact ⟨h.1.snoc le_rfl a, h.2.1.trans hline, h.2.2.trans hclock⟩
  | missed => exact ⟨h.1.trans hline, h.2.trans hclock⟩
  | walking => exact Begun.snoc h a
  | walked => exact ⟨h.1.snoc a, List.mem_append_left _ h.2⟩
  | served => exact Current.snoc h a
  | answered => trivial

lemma Inv.snoc_sources (h : Inv as t) (a : Label) {destination : IpAddr} {known : LineSource}
    (hk : t.sources destination = some known) :
    ∃ c, Begun (as ++ [a]) c destination known.line known.time ∧
      .found c known.source ∈ as ++ [a] := by
  obtain ⟨c, hbegun, hfound⟩ := h.sources _ _ hk
  exact ⟨c, hbegun.snoc a, List.mem_append_left _ hfound⟩

/-- A step that moves one call on, and nothing else but what the addresses held allow. -/
lemma Inv.put (h : Inv as t) {pc : Pc} {a : Label}
    (hpc : Holds (as ++ [a]) t.line t.clock c pc) :
    Inv (as ++ [a]) (t.put c pc) where
  calls := by
    intro c' pc' hc'
    rw [World.put, List.getElem?_set] at hc'
    split at hc'
    · next he =>
      subst he
      split at hc'
      · exact Option.some.inj hc' ▸ hpc
      · cases hc'
    · exact (h.calls _ _ hc').snoc le_rfl le_rfl a
  sources := fun _ _ hk => h.snoc_sources a hk

lemma World.look_cases (w : World) (destination : IpAddr) (line : ℕ) (now : Instant) :
    w.look destination line now = .missed destination line now ∨
      ∃ known, w.sources destination = some known ∧ known.line = line ∧
        now < known.time + LINE_SOURCE_TTL ∧
        w.look destination line now = .served destination known.source := by
  unfold World.look
  split
  · next known hk =>
    split
    · next hcurrent =>
      exact .inr ⟨known, hk, hcurrent.1, lt_add_of_tsub_lt_left hcurrent.2, rfl⟩
    · exact .inl rfl
  · exact .inl rfl

/-- **A step keeps what is so of every call and every address held.** -/
lemma Inv.step (hrun : run step .start as = some t) (h : Inv as t) {a : Label}
    (hs : Lines.step t a = some t') : Inv (as ++ [a]) t' := by
  cases a with
  | lineChanged =>
    obtain rfl := Option.some.inj hs
    exact ⟨fun c pc hc => (h.calls c pc hc).snoc (by simp) le_rfl _,
      fun _ _ hk => h.snoc_sources _ hk⟩
  | wait span =>
    obtain rfl := Option.some.inj hs
    exact ⟨fun c pc hc => (h.calls c pc hc).snoc le_rfl (by simp) _,
      fun _ _ hk => h.snoc_sources _ hk⟩
  | call destination =>
    obtain rfl := Option.some.inj hs
    refine ⟨fun c pc hc => ?_, fun _ _ hk => h.snoc_sources _ hk⟩
    rw [List.getElem?_append] at hc
    split at hc
    · exact (h.calls c pc hc).snoc le_rfl le_rfl _
    · next hlen =>
      rw [List.getElem?_singleton] at hc
      split at hc
      · next hzero =>
        obtain rfl := Option.some.inj hc
        obtain rfl : t.calls.length = c := by omega
        exact ⟨⟨t, ⟨Took.last hrun _, rfl⟩, rfl, le_rfl⟩, le_rfl⟩
      · cases hc
  | readClock c =>
    simp only [Lines.step] at hs
    split at hs
    · next destination line hc =>
      obtain rfl := Option.some.inj hs
      have hcall := h.calls _ _ hc
      exact h.put ⟨hcall.1.snoc le_rfl _, hcall.2, le_rfl⟩
    · cases hs
  | look c =>
    simp only [Lines.step] at hs
    split at hs
    · next destination line now hc =>
      obtain rfl := Option.some.inj hs
      obtain ⟨⟨s, hmade, hline, hclock⟩, hle, hnow⟩ := h.calls _ _ hc
      refine h.put ?_
      rcases t.look_cases destination line now with hlook | ⟨known, hk, hsame, hlt, hlook⟩
      · rw [hlook]
        exact ⟨hle, hnow⟩
      · rw [hlook]
        -- the stamp of what is held was taken under the same line, before its walk began
        obtain ⟨c', ⟨w, hbegan, habout, hline', hclock'⟩, hfound⟩ := h.sources _ _ hk
        refine Current.snoc ⟨s, w, c', hmade, ⟨hbegan, habout, hfound⟩, ?_, ?_⟩ _
        · omega
        · calc s.clock ≤ now := hclock
            _ < known.time + LINE_SOURCE_TTL := hlt
            _ ≤ w.clock + LINE_SOURCE_TTL := Nat.add_le_add_right hclock' _
    · cases hs
  | walk c =>
    simp only [Lines.step] at hs
    split at hs
    · next destination line now hc =>
      obtain rfl := Option.some.inj hs
      obtain ⟨hle, hnow⟩ := h.calls _ _ hc
      exact h.put ⟨t, Took.last hrun _, ⟨line, now, hc⟩, hle, hnow⟩
    · cases hs
  | found c source =>
    simp only [Lines.step] at hs
    split at hs
    · next destination line now hc =>
      obtain rfl := Option.some.inj hs
      exact h.put ⟨Begun.snoc (h.calls _ _ hc) _, by simp⟩
    · cases hs
  | insert c =>
    simp only [Lines.step] at hs
    split at hs
    · next destination line now source hc =>
      obtain rfl := Option.some.inj hs
      obtain ⟨hbegun, hfound⟩ := h.calls _ _ hc
      have hput : Inv (as ++ [.insert c]) (t.put c (.answered destination source)) := h.put trivial
      refine ⟨hput.calls, fun d known hk => ?_⟩
      change Function.update t.sources destination _ d = some known at hk
      by_cases hd : d = destination
      · subst hd
        rw [Function.update_self] at hk
        obtain rfl := Option.some.inj hk
        exact ⟨c, hbegun.snoc _, List.mem_append_left _ hfound⟩
      · rw [Function.update_of_ne hd] at hk
        exact h.snoc_sources _ hk
    · cases hs

/-- **A stale line address is never used.** Whatever calls pass each other while the line
changes, an address that a call returns out of those held was found by a walk that began after
the last line change counted when the call was made, and less than the time to live before it. -/
theorem served_current {as : List Label} {t : World} {c : ℕ} {destination : IpAddr}
    {source : Option IpAddr} (hrun : run step .start as = some t)
    (hc : t.calls[c]? = some (.served destination source)) : Current as c destination source := by
  have hinv : Inv as t := by
    refine run_history (I := Inv) ⟨?_, ?_⟩ (fun as t a t' hr hi hs => hi.step hr hs) hrun
    · intro c pc hc
      simp [World.start] at hc
    · intro destination known hk
      simp [World.start] at hk
  exact hinv.calls _ _ hc

/-- Two calls for a destination, the second served with what the first has found. -/
def twice (destination source : IpAddr) : List Label :=
  [.call destination, .readClock 0, .look 0, .walk 0, .found 0 (some source), .insert 0,
    .wait (Duration.secs 29), .call destination, .readClock 1, .look 1]

theorem served_current_twice :
    Current (twice (.v4 0x08080808) (.v4 0xc0a80002)) 1 (.v4 0x08080808) (some (.v4 0xc0a80002)) :=
  served_current rfl rfl

end Masqr.Core.Lines
