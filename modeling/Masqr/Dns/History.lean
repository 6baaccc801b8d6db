import Mathlib
import Masqr.Dns.Lease

/-!
The lease table by its history: when an address is let go of, told from the calls that named it.

A call is taken apart into events, one for each record of an answer, because one answer may make
room several times.
-/

namespace Masqr.Dns.Leases

open Masqr.Lib

/-! ### Calls and events -/

inductive Call
  | record (walk : Walk (IpAddr × Lease)) (name : String) (records : List Record) (now : Instant)
  | touch (address : IpAddr) (now : Instant)
  | expire (now : Instant)

def Call.perform (l : Leases) : Call → Leases
  | .record walk name records now => (l.record walk name records now).2
  | .touch address now => l.touch address now
  | .expire now => (l.expire now).2

/-- What happens to the table at one moment, in milliseconds from its start. -/
inductive Event
  | entry (walk : Walk (IpAddr × Lease)) (nowMs : ℕ) (name : String) (record : Record)
  | touch (nowMs : ℕ) (address : IpAddr)
  | expire (nowMs : ℕ)

def Event.apply (held : Held) : Event → Held
  | .entry walk nowMs name record => (recordOne walk nowMs name (held, false) record).1
  | .touch nowMs address =>
    match held[address]? with
    | some lease =>
      held.insert address
        { lease with expiresMs := max lease.expiresMs (nowMs + MIN_LEASE.asMillis) }
    | none => held
  | .expire nowMs => held.filter fun _ lease => decide (nowMs < lease.expiresMs)

/-- The events of a call on a table that started at `base`. -/
def Call.events (base : Instant) : Call → List Event
  | .record walk name records now => records.map (.entry walk (now.since base).asMillis name)
  | .touch address now => [.touch (now.since base).asMillis address]
  | .expire now => [.expire (now.since base).asMillis]

def after (held : Held) (events : List Event) : Held := events.foldl Event.apply held

@[simp] lemma after_nil (held : Held) : after held [] = held := rfl

@[simp] lemma after_cons (held : Held) (e : Event) (es : List Event) :
    after held (e :: es) = after (e.apply held) es := rfl

lemma after_append (held : Held) (es es' : List Event) :
    after held (es ++ es') = after (after held es) es' := List.foldl_append

lemma recordOne_fst (walk : Walk (IpAddr × Lease)) (nowMs : ℕ) (name : String) (s : Held × Bool)
    (r : Record) : (recordOne walk nowMs name s r).1 =
      (Event.entry walk nowMs name r).apply s.1 := by
  simp only [Event.apply, recordOne]
  cases s.1[r.address]? <;> rfl

lemma recordAll_fst (walk : Walk (IpAddr × Lease)) (nowMs : ℕ) (name : String)
    (records : List Record) (s : Held × Bool) :
    (records.foldl (recordOne walk nowMs name) s).1 =
      after s.1 (records.map (.entry walk nowMs name)) := by
  induction records generalizing s with
  | nil => rfl
  | cons r records ih => rw [List.foldl_cons, ih, recordOne_fst, List.map_cons, after_cons]

/-- **A call does what its events do.** -/
theorem perform_held (l : Leases) (c : Call) :
    (c.perform l).held = after l.held (c.events l.base) ∧ (c.perform l).base = l.base := by
  cases c with
  | record walk name records now =>
    simp only [Call.perform, Call.events, record]
    split
    · next hempty =>
      rw [List.isEmpty_iff.1 hempty]
      exact ⟨rfl, rfl⟩
    · exact ⟨recordAll_fst walk _ name records (l.held, false), rfl⟩
  | touch address now =>
    simp only [Call.perform, Call.events, touch, after_cons, after_nil, Event.apply, millis]
    cases l.held[address]? <;> exact ⟨rfl, rfl⟩
  | expire now => exact ⟨rfl, rfl⟩

/-- The table after a run of calls, and the events of the run. -/
def runCalls (base : Instant) (calls : List Call) : Leases := calls.foldl Call.perform (new base)

lemma runCalls_held (base : Instant) (calls : List Call) :
    (runCalls base calls).held = after ∅ (calls.flatMap (Call.events base)) ∧
      (runCalls base calls).base = base := by
  induction calls using List.reverseRecOn with
  | nil => exact ⟨rfl, rfl⟩
  | append_singleton calls c ih =>
    obtain ⟨hheld, hbase⟩ := ih
    obtain ⟨hheld', hbase'⟩ := perform_held (runCalls base calls) c
    have hstep : runCalls base (calls ++ [c]) = c.perform (runCalls base calls) := by
      simp [runCalls]
    rw [hstep, hheld', hbase', hbase, hheld, List.flatMap_append, after_append]
    simp

/-! ### One event -/

/-- When an address is let go of, where it is held. -/
def expiry (held : Held) (a : IpAddr) : Option ℕ := held[a]?.map (·.expiresMs)

lemma mem_iff_expiry {held : Held} {a : IpAddr} : a ∈ held ↔ (expiry held a).isSome := by
  rw [expiry, Option.isSome_map, Std.ExtTreeMap.mem_iff_isSome_getElem?]

/-- The expiry an event gives an address it names. -/
def Event.due (a : IpAddr) : Event → Option ℕ
  | .entry _ nowMs _ record =>
    if record.address = a then some (nowMs + (lifetime record.ttl).asMillis) else none
  | .touch nowMs address => if address = a then some (nowMs + MIN_LEASE.asMillis) else none
  | .expire _ => none

/-- The event makes room by putting the address out. -/
def Event.Evicts (held : Held) (e : Event) (a : IpAddr) : Prop :=
  a ∈ held ∧ a ∉ e.apply held ∧ ∃ walk nowMs name record, e = .entry walk nowMs name record

lemma expiry_insert {held : Held} {address a : IpAddr} {lease : Lease} :
    expiry (held.insert address lease) a =
      if address = a then some lease.expiresMs else expiry held a := by
  unfold expiry
  rw [Std.ExtTreeMap.getElem?_insert]
  simp only [Std.LawfulEqCmp.compare_eq_iff_eq]
  split <;> rfl

/-- The lease put out is the first in the walk of those that expire soonest. -/
lemma evictOne_pick (walk : Walk (IpAddr × Lease)) {held : Held} (h : 0 < held.size) :
    ∃ victim lease, minByKey (fun entry => entry.2.expiresMs) (walk.order held.toList) =
        some (victim, lease) ∧ held[victim]? = some lease ∧
      evictOne walk held = held.erase victim := by
  unfold evictOne
  split
  · next victim lease hmin =>
    obtain ⟨hmem, -⟩ := minByKey_spec _ hmin
    rw [walk.mem, Std.ExtTreeMap.mem_toList_iff_getElem?_eq_some] at hmem
    exact ⟨victim, lease, hmin, hmem, rfl⟩
  · next hnone =>
    rw [minByKey_eq_none] at hnone
    have hperm := walk.perm held.toList
    rw [hnone, List.nil_perm] at hperm
    rw [← Std.ExtTreeMap.length_toList, hperm] at h
    exact absurd h (Nat.lt_irrefl 0)

/-- The lease put out is one that expires soonest. -/
lemma evictOne_spec (walk : Walk (IpAddr × Lease)) {held : Held} (h : 0 < held.size) :
    ∃ victim soonest, expiry held victim = some soonest ∧
      (∀ b later, expiry held b = some later → soonest ≤ later) ∧
      evictOne walk held = held.erase victim := by
  obtain ⟨victim, lease, hmin, hmem, herase⟩ := evictOne_pick walk h
  refine ⟨victim, lease.expiresMs, by rw [expiry, hmem]; rfl, fun b later hb => ?_, herase⟩
  obtain ⟨lease', hl, rfl⟩ := Option.map_eq_some_iff.1 hb
  exact (minByKey_spec _ hmin).2 (b, lease')
    (walk.mem.2 (Std.ExtTreeMap.mem_toList_iff_getElem?_eq_some.2 hl))

/-- What an event can do to an address: name it, in a record or by use; leave it alone; put it out
to make room, where the table is full and nothing expires sooner; or find its time passed. -/
inductive Effect (held : Held) (a : IpAddr) (e : Event) : Prop
  | entered {due : ℕ} (hdue : e.due a = some due)
      (h : expiry (e.apply held) a = some (max ((expiry held a).getD 0) due))
  | touched {due : ℕ} (hdue : e.due a = some due)
      (h : expiry (e.apply held) a = (expiry held a).map (max · due))
  | untouched (hdue : e.due a = none) (hlapse : ∀ nowMs, e ≠ .expire nowMs)
      (h : expiry (e.apply held) a = expiry held a)
  | evicted {soonest : ℕ} (he : e.Evicts held a) (hfull : MAX_LEASES ≤ held.size)
      (hnew : ∀ walk nowMs name r, e = .entry walk nowMs name r → r.address ∉ held)
      (hs : expiry held a = some soonest)
      (hleast : ∀ b later, expiry held b = some later → soonest ≤ later)
  | expired {nowMs : ℕ} (he : e = .expire nowMs)
      (h : expiry (e.apply held) a = (expiry held a).filter (nowMs < ·))

lemma entry_named (held : Held) (walk : Walk (IpAddr × Lease)) (nowMs : ℕ) (name : String)
    (r : Record) : expiry ((Event.entry walk nowMs name r).apply held) r.address =
      some (max ((expiry held r.address).getD 0) (nowMs + (lifetime r.ttl).asMillis)) := by
  simp only [Event.apply, recordOne]
  cases hl : held[r.address]? with
  | some lease =>
    have hexpiry : expiry held r.address = some lease.expiresMs := by rw [expiry, hl]; rfl
    simp only [expiry_insert, if_true, hexpiry, Option.getD_some]
  | none =>
    have hexpiry : expiry held r.address = none := by rw [expiry, hl]; rfl
    simp only [expiry_insert, if_true, hexpiry, Option.getD_none, Nat.zero_max]

lemma entry_full {held : Held} {walk : Walk (IpAddr × Lease)} {nowMs : ℕ} {name : String}
    {r : Record} {victim a : IpAddr} (hnew : held[r.address]? = none)
    (hfull : MAX_LEASES ≤ held.size) (herase : evictOne walk held = held.erase victim)
    (hr : r.address ≠ a) :
    expiry ((Event.entry walk nowMs name r).apply held) a =
      if victim = a then none else expiry held a := by
  simp only [Event.apply, recordOne, hnew, if_pos hfull, expiry_insert, if_neg hr, herase]
  by_cases hv : victim = a
  · subst hv
    rw [expiry, Std.ExtTreeMap.getElem?_erase_self, if_pos rfl]
    rfl
  · rw [expiry, expiry, Std.ExtTreeMap.getElem?_erase, if_neg hv, if_neg]
    rw [Std.LawfulEqCmp.compare_eq_iff_eq]
    exact hv

lemma entry_effect (held : Held) (a : IpAddr) (walk : Walk (IpAddr × Lease)) (nowMs : ℕ)
    (name : String) (r : Record) : Effect held a (.entry walk nowMs name r) := by
  by_cases hr : r.address = a
  · subst hr
    exact .entered (if_pos rfl) (entry_named held walk nowMs name r)
  · have hdue : (Event.entry walk nowMs name r).due a = none := if_neg hr
    cases hl : held[r.address]? with
    | some lease =>
      refine .untouched hdue nofun ?_
      simp only [Event.apply, recordOne, hl, expiry_insert, if_neg hr]
    | none =>
      have hnew : r.address ∉ held := by
        rw [Std.ExtTreeMap.mem_iff_isSome_getElem?, hl]
        simp
      by_cases hfull : MAX_LEASES ≤ held.size
      · obtain ⟨victim, soonest, hvictim, hleast, herase⟩ :=
          evictOne_spec walk (lt_of_lt_of_le (by decide) hfull)
        have happly : expiry ((Event.entry walk nowMs name r).apply held) a = _ :=
          entry_full hl hfull herase hr
        by_cases hv : victim = a
        · subst hv
          rw [if_pos rfl] at happly
          refine .evicted ⟨?_, ?_, walk, nowMs, name, r, rfl⟩ hfull ?_ hvictim hleast
          · rw [mem_iff_expiry, hvictim]
            rfl
          · rw [mem_iff_expiry, happly]
            simp
          · rintro _ _ _ _ ⟨⟩
            exact hnew
        · rw [if_neg hv] at happly
          exact .untouched hdue nofun happly
      · refine .untouched hdue nofun ?_
        simp only [Event.apply, recordOne, hl, expiry_insert, if_neg hr, if_neg hfull]

lemma touch_expiry (held : Held) (nowMs : ℕ) (address a : IpAddr) :
    expiry ((Event.touch nowMs address).apply held) a =
      if address = a then (expiry held a).map (max · (nowMs + MIN_LEASE.asMillis))
      else expiry held a := by
  simp only [Event.apply]
  cases hl : held[address]? with
  | some lease =>
    simp only [expiry_insert]
    split
    · next ha =>
      subst ha
      rw [expiry, hl]
      rfl
    · rfl
  | none =>
    simp only
    split
    · next ha =>
      subst ha
      rw [expiry, hl]
      rfl
    · rfl

lemma touch_size (held : Held) (nowMs : ℕ) (address : IpAddr) :
    ((Event.touch nowMs address).apply held).size = held.size := by
  simp only [Event.apply]
  split
  · next lease hl =>
    have hin := Std.ExtTreeMap.contains_iff_mem.2 (mem_of_getElem? hl)
    rw [Std.ExtTreeMap.size_insert, if_pos hin]
  · rfl

lemma touch_effect (held : Held) (a : IpAddr) (nowMs : ℕ) (address : IpAddr) :
    Effect held a (.touch nowMs address) := by
  have hexpiry := touch_expiry held nowMs address a
  by_cases hr : address = a
  · rw [if_pos hr] at hexpiry
    exact .touched (if_pos hr) hexpiry
  · rw [if_neg hr] at hexpiry
    exact .untouched (if_neg hr) nofun hexpiry

/-- **What an event does to an address.** -/
theorem effect (held : Held) (a : IpAddr) (e : Event) : Effect held a e := by
  cases e with
  | entry walk nowMs name r => exact entry_effect held a walk nowMs name r
  | touch nowMs address => exact touch_effect held a nowMs address
  | expire nowMs =>
    refine .expired rfl ?_
    simp only [Event.apply, expiry, Std.ExtTreeMap.getElem?_filter']
    cases held[a]? with
    | none => rfl
    | some lease =>
      by_cases hlt : nowMs < lease.expiresMs <;> simp [Option.filter_some, hlt]

/-! ### A life in the table -/

/-- The latest expiry that events give an address. -/
def deadline (a : IpAddr) (events : List Event) : ℕ := (events.filterMap (·.due a)).foldl max 0

/-- An `expire` among the events came when all that was given the address before it had run out. -/
def Lapsed (a : IpAddr) (e0 : Event) (events : List Event) : Prop :=
  ∃ es nowMs es', events = es ++ .expire nowMs :: es' ∧ deadline a (e0 :: es) ≤ nowMs

lemma deadline_snoc (a : IpAddr) (es : List Event) (e : Event) :
    deadline a (es ++ [e]) = max (deadline a es) ((e.due a).getD 0) := by
  unfold deadline
  rw [List.filterMap_append, List.foldl_append]
  cases hdue : e.due a with
  | none => simp [hdue]
  | some due => simp [hdue]

lemma not_lapsed_snoc {a : IpAddr} {e0 e : Event} {es : List Event}
    (h : ¬ Lapsed a e0 (es ++ [e])) : ¬ Lapsed a e0 es := by
  rintro ⟨es1, nowMs, es2, rfl, hle⟩
  exact h ⟨es1, nowMs, es2 ++ [e], by simp, hle⟩

/-- **From the entry that inserted it an address is held to the latest expiry it was given**,
unless it is put out. -/
lemma held_until {held : Held} {e0 : Event} {a : IpAddr} (hout : a ∉ held)
    (hin : a ∈ e0.apply held) (es : List Event)
    (hkept : ∀ es1 e es2, es = es1 ++ e :: es2 → ¬ e.Evicts (after held (e0 :: es1)) a)
    (hlapse : ¬ Lapsed a e0 es) :
    expiry (after held (e0 :: es)) a = some (deadline a (e0 :: es)) := by
  induction es using List.reverseRecOn with
  | nil =>
    rw [mem_iff_expiry, Option.not_isSome_iff_eq_none] at hout
    rw [mem_iff_expiry] at hin
    rw [after_cons, after_nil]
    cases effect held a e0 with
    | entered hdue h => rw [h, hout]; simp [deadline, hdue]
    | touched hdue h => rw [h, hout] at hin; cases hin
    | untouched hdue hl h => rw [h, hout] at hin; cases hin
    | evicted he hfull hnew hs hleast => rw [hout] at hs; cases hs
    | expired he h => rw [h, hout] at hin; cases hin
  | append_singleton es e ih =>
    have hbefore := ih (fun es1 e' es2 hes => hkept es1 e' (es2 ++ [e]) (by simp [hes]))
      (not_lapsed_snoc hlapse)
    have hlast := hkept es e [] rfl
    rw [← List.cons_append, after_append, after_cons, after_nil, deadline_snoc]
    cases effect (after held (e0 :: es)) a e with
    | entered hdue h => rw [h, hbefore, hdue]; rfl
    | touched hdue h => rw [h, hbefore, hdue]; rfl
    | untouched hdue hl h => rw [h, hbefore, hdue]; simp
    | evicted he hfull hnew hs hleast => exact absurd he hlast
    | @expired nowMs he h =>
      subst he
      have hlate : nowMs < deadline a (e0 :: es) := by
        by_contra hpassed
        exact hlapse ⟨es, nowMs, [], rfl, Nat.not_lt.1 hpassed⟩
      rw [h, hbefore]
      simp [Event.due, hlate]

/-- It is let go of by the first `expire` that comes after that. -/
lemma let_go {held : Held} {e0 : Event} {a : IpAddr} (hout : a ∉ held) (hin : a ∈ e0.apply held)
    (es : List Event)
    (hkept : ∀ es1 e es2, es = es1 ++ e :: es2 → ¬ e.Evicts (after held (e0 :: es1)) a)
    (hlapse : ¬ Lapsed a e0 es) {nowMs : ℕ} (hlate : deadline a (e0 :: es) ≤ nowMs) :
    a ∉ after held (e0 :: es ++ [.expire nowMs]) := by
  have hheld := held_until hout hin es hkept hlapse
  rw [after_append, after_cons, after_nil, mem_iff_expiry]
  cases effect (after held (e0 :: es)) a (.expire nowMs) with
  | entered hdue h => cases hdue
  | touched hdue h => cases hdue
  | untouched hdue hl h => exact absurd rfl (hl nowMs)
  | evicted he hfull hnew hs hleast => exact absurd he.2.2 (by simp)
  | expired he h =>
    cases he
    rw [h, hheld]
    simp [Option.filter_some, Nat.not_lt.2 hlate]

/-! ### The bound, and what never happens -/

lemma evictOne_full (walk : Walk (IpAddr × Lease)) {held : Held} (h : 0 < held.size) :
    (evictOne walk held).size + 1 = held.size := by
  obtain ⟨victim, soonest, hvictim, -, herase⟩ := evictOne_spec walk h
  have hmem : victim ∈ held := by
    rw [mem_iff_expiry, hvictim]
    rfl
  rw [herase, Std.ExtTreeMap.size_erase, if_pos (Std.ExtTreeMap.contains_iff_mem.2 hmem)]
  omega

lemma apply_size {held : Held} (h : held.size ≤ MAX_LEASES) (e : Event) :
    (e.apply held).size ≤ MAX_LEASES := by
  cases e with
  | entry walk nowMs name r =>
    simp only [Event.apply, recordOne]
    cases hl : held[r.address]? with
    | some lease =>
      simp only
      have hin := Std.ExtTreeMap.contains_iff_mem.2 (mem_of_getElem? hl)
      rw [Std.ExtTreeMap.size_insert, if_pos hin]
      exact h
    | none =>
      simp only
      split
      · next hfull =>
        have hevict := evictOne_full walk (lt_of_lt_of_le (by decide) hfull)
        refine le_trans Std.ExtTreeMap.size_insert_le ?_
        omega
      · next hroom =>
        refine le_trans Std.ExtTreeMap.size_insert_le ?_
        omega
  | touch nowMs address =>
    rw [touch_size]
    exact h
  | expire nowMs => exact le_trans Std.ExtTreeMap.size_filter_le_size h

lemma after_size {held : Held} (h : held.size ≤ MAX_LEASES) (es : List Event) :
    (after held es).size ≤ MAX_LEASES := by
  induction es generalizing held with
  | nil => exact h
  | cons e es ih => exact ih (apply_size h e)

/-- Where nothing is let go of and the address is not put out, its expiry only moves further out. -/
lemma after_later {held : Held} {a : IpAddr} {x : ℕ} (hx : expiry held a = some x)
    (es : List Event) (hes : ∀ e ∈ es, ∀ nowMs, e ≠ .expire nowMs)
    (hkept : ∀ es1 e es2, es = es1 ++ e :: es2 → ¬ e.Evicts (after held es1) a) :
    ∃ y, expiry (after held es) a = some y ∧ x ≤ y := by
  induction es generalizing held x with
  | nil => exact ⟨x, hx, le_rfl⟩
  | cons e es ih =>
    have hhere := hkept [] e es rfl
    obtain ⟨y, hy, hle⟩ : ∃ y, expiry (e.apply held) a = some y ∧ x ≤ y := by
      cases effect held a e with
      | entered hdue h => exact ⟨_, h, by rw [hx]; exact le_max_left _ _⟩
      | touched hdue h => exact ⟨_, by rw [h, hx]; rfl, le_max_left _ _⟩
      | untouched hdue hl h => exact ⟨x, by rw [h, hx], le_rfl⟩
      | evicted he hfull hnew hs hleast => exact absurd he hhere
      | expired he h => exact absurd he (hes e (List.mem_cons_self ..) _)
    obtain ⟨z, hz, hle'⟩ := ih hy (fun e' he' => hes e' (List.mem_cons_of_mem _ he'))
      fun es1 e' es2 hsplit => hkept (e :: es1) e' es2 (by rw [hsplit]; rfl)
    exact ⟨z, hz, le_trans hle hle'⟩

lemma perform_later (l : Leases) (c : Call) (a : IpAddr) {x y : ℕ}
    (hx : expiry l.held a = some x) (hy : expiry (c.perform l).held a = some y) :
    x ≤ y ∨ ∃ es e es', c.events l.base = es ++ e :: es' ∧ e.Evicts (after l.held es) a := by
  by_cases hkept : ∃ es e es', c.events l.base = es ++ e :: es' ∧ e.Evicts (after l.held es) a
  · exact .inr hkept
  · left
    rw [(perform_held l c).1] at hy
    have hnone : ∀ es e es', c.events l.base = es ++ e :: es' → ¬ e.Evicts (after l.held es) a :=
      fun es e es' hsplit he => hkept ⟨es, e, es', hsplit, he⟩
    by_cases hes : ∀ e ∈ c.events l.base, ∀ nowMs, e ≠ .expire nowMs
    · obtain ⟨z, hz, hle⟩ := after_later hx _ hes hnone
      rw [hz] at hy
      cases hy
      exact hle
    · -- only `expire` is told as an expiry, and it moves none
      cases c with
      | record walk name records now => exact absurd (by simp [Call.events]) hes
      | touch address now => exact absurd (by simp [Call.events]) hes
      | expire now =>
        cases effect l.held a (.expire (now.since l.base).asMillis) with
        | entered hdue h => cases hdue
        | touched hdue h => cases hdue
        | untouched hdue hl h => exact absurd rfl (hl _)
        | evicted he hfull hnew hs hleast => exact absurd he.2.2 (by simp)
        | expired he h =>
          cases he
          have hsame : expiry (after l.held (Call.events l.base (.expire now))) a =
              (some x).filter ((now.since l.base).asMillis < ·) := by
            rw [← hx]
            exact h
          rw [hsame, Option.filter_some] at hy
          split at hy
          · cases hy
            exact le_rfl
          · cases hy

lemma evicts_cause {held : Held} {e : Event} {a : IpAddr} (h : e.Evicts held a) :
    MAX_LEASES ≤ held.size ∧ (∀ walk nowMs name r, e = .entry walk nowMs name r →
      r.address ∉ held) ∧
    ∃ soonest, expiry held a = some soonest ∧
      ∀ b later, expiry held b = some later → soonest ≤ later := by
  obtain ⟨hin, hout, walk, nowMs, name, r, rfl⟩ := h
  rw [mem_iff_expiry] at hin hout
  cases effect held a (.entry walk nowMs name r) with
  | entered hdue h => rw [h] at hout; exact absurd rfl hout
  | touched hdue h =>
    rw [h, Option.isSome_map] at hout
    exact absurd hin hout
  | untouched hdue hl h =>
    rw [h] at hout
    exact absurd hin hout
  | evicted he hfull hnew hs hleast => exact ⟨hfull, hnew, _, hs, hleast⟩
  | expired he h => cases he

/-! ### Filling the table -/

lemma entry_new {held : Held} {walk : Walk (IpAddr × Lease)} {nowMs : ℕ} {name : String}
    {r : Record} (hnew : r.address ∉ held) (hroom : held.size < MAX_LEASES) :
    ((Event.entry walk nowMs name r).apply held).size = held.size + 1 ∧
    ∀ b, expiry ((Event.entry walk nowMs name r).apply held) b =
      if r.address = b then some (nowMs + (lifetime r.ttl).asMillis) else expiry held b := by
  have hnone : held[r.address]? = none := by
    rw [← Option.not_isSome_iff_eq_none, ← Std.ExtTreeMap.mem_iff_isSome_getElem?]
    exact hnew
  have hcontains : ¬ held.contains r.address = true := by
    rw [Std.ExtTreeMap.contains_iff_mem]
    exact hnew
  simp only [Event.apply, recordOne, hnone, if_neg (Nat.not_le.2 hroom)]
  exact ⟨by rw [Std.ExtTreeMap.size_insert, if_neg hcontains], fun b => expiry_insert⟩

/-- Records of new addresses, as many as there is room for, are all held. -/
lemma after_new {held : Held} (walk : Walk (IpAddr × Lease)) (nowMs : ℕ) (name : String)
    {records : List Record} (hnodup : (records.map (·.address)).Nodup)
    (hnew : ∀ r ∈ records, r.address ∉ held) (hroom : held.size + records.length ≤ MAX_LEASES) :
    (after held (records.map (.entry walk nowMs name))).size = held.size + records.length ∧
    ∀ b y, expiry (after held (records.map (.entry walk nowMs name))) b = some y ↔
      expiry held b = some y ∨
        ∃ r ∈ records, r.address = b ∧ y = nowMs + (lifetime r.ttl).asMillis := by
  induction records generalizing held with
  | nil => simp
  | cons r records ih =>
    rw [List.map_cons, List.nodup_cons] at hnodup
    rw [List.length_cons] at hroom
    obtain ⟨hsize, hexpiry⟩ : ((Event.entry walk nowMs name r).apply held).size = _ ∧ _ :=
      entry_new (hnew r (List.mem_cons_self ..)) (by omega)
    have hrest : ∀ q ∈ records, q.address ∉ (Event.entry walk nowMs name r).apply held := by
      intro q hq
      have hne : r.address ≠ q.address := fun heq =>
        hnodup.1 (heq ▸ List.mem_map_of_mem hq)
      rw [mem_iff_expiry, hexpiry, if_neg hne, ← mem_iff_expiry]
      exact hnew q (List.mem_cons_of_mem _ hq)
    obtain ⟨hsize', hexpiry'⟩ := ih hnodup.2 hrest (by omega)
    rw [List.map_cons, after_cons, List.length_cons]
    refine ⟨by omega, fun b y => ?_⟩
    rw [hexpiry', hexpiry, List.exists_mem_cons_iff]
    by_cases hb : r.address = b
    · subst hb
      have hheld : expiry held r.address = none := by
        rw [← Option.not_isSome_iff_eq_none, ← mem_iff_expiry]
        exact hnew r (List.mem_cons_self ..)
      simp [hheld, eq_comm]
    · simp [hb]

/-! ### The whole -/

/-- **The lease table is told by its history.** It stays within its bound; use adds and removes
nothing; no call makes an expiry earlier, but for a record that puts the address out and takes it in
again; an address that is not put out is held, from the entry that inserted it, to the latest expiry
it was given since and is let go of by the first `expire` after that; only an entry of a new address
into a full table puts one out, and one that expires soonest; and a record that is said to change
nothing leaves the same addresses held. -/
theorem told_by_history :
    (∀ base calls, (runCalls base calls).held.size ≤ MAX_LEASES) ∧
    (∀ (l : Leases) address now a, a ∈ (l.touch address now).held ↔ a ∈ l.held) ∧
    (∀ (l : Leases) (c : Call) a x y, expiry l.held a = some x →
      expiry (c.perform l).held a = some y →
      x ≤ y ∨ ∃ es e es', c.events l.base = es ++ e :: es' ∧ e.Evicts (after l.held es) a) ∧
    (∀ base calls before e0 es a,
      calls.flatMap (Call.events base) = before ++ e0 :: es →
      a ∉ after ∅ before → a ∈ e0.apply (after ∅ before) →
      (∀ es1 e es2, es = es1 ++ e :: es2 → ¬ e.Evicts (after ∅ (before ++ e0 :: es1)) a) →
      ¬ Lapsed a e0 es →
      expiry (runCalls base calls).held a = some (deadline a (e0 :: es)) ∧
      ∀ now : Instant, deadline a (e0 :: es) ≤ (now.since base).asMillis →
        a ∉ (runCalls base (calls ++ [.expire now])).held) ∧
    (∀ held (e : Event) a, e.Evicts held a → MAX_LEASES ≤ held.size ∧
      (∀ walk nowMs name r, e = .entry walk nowMs name r → r.address ∉ held) ∧
      ∃ soonest, expiry held a = some soonest ∧
        ∀ b later, expiry held b = some later → soonest ≤ later) ∧
    ∀ (l : Leases) walk name records now, (l.record walk name records now).1 = false →
      ∀ a, a ∈ (l.record walk name records now).2.held ↔ a ∈ l.held := by
  refine ⟨fun base calls => ?_, fun l address now a => mem_touch,
    fun l c a x y hx hy => perform_later l c a hx hy, ?_, fun held e a h => evicts_cause h,
    fun l walk name records now h a => (record_false h).1⟩
  · rw [(runCalls_held base calls).1]
    exact after_size (Nat.zero_le _) _
  · intro base calls before e0 es a hevents hout hin hkept hlapse
    have hkept' : ∀ es1 e es2, es = es1 ++ e :: es2 →
        ¬ e.Evicts (after (after ∅ before) (e0 :: es1)) a := fun es1 e es2 hsplit => by
      rw [← after_append]
      exact hkept es1 e es2 hsplit
    refine ⟨?_, fun now hlate => ?_⟩
    · rw [(runCalls_held base calls).1, hevents, after_append]
      exact held_until hout hin es hkept' hlapse
    · rw [(runCalls_held base _).1, List.flatMap_append, hevents, List.append_assoc, after_append]
      exact let_go hout hin es hkept' hlapse hlate

/-! ### One answer that shortens a lease -/

def soon : IpAddr := .v4 (BitVec.ofNat 32 0)

/-- An answer that fills the table, with one address to expire a second before the others. -/
def crowd : List Record :=
  ⟨"a", soon, 3599⟩ :: (List.range 8191).map fun i => ⟨"a", .v4 (BitVec.ofNat 32 (i + 1)), 3600⟩

def latecomer : Record := ⟨"c", .v4 (BitVec.ofNat 32 8192), 3600⟩

/-- A new address, and the one that has to go for it again. -/
def pushing : Call := .record .asHeld "c" [latecomer, ⟨"a", soon, 30⟩] 0

lemma v4_ne {i j : ℕ} (hi : i < 2 ^ 32) (hj : j < 2 ^ 32) (hne : i ≠ j) :
    IpAddr.v4 (BitVec.ofNat 32 i) ≠ IpAddr.v4 (BitVec.ofNat 32 j) := by
  intro heq
  have hnat : (BitVec.ofNat 32 i).toNat = (BitVec.ofNat 32 j).toNat :=
    congrArg BitVec.toNat (IpAddr.v4.inj heq)
  rw [BitVec.toNat_ofNat, BitVec.toNat_ofNat, Nat.mod_eq_of_lt hi, Nat.mod_eq_of_lt hj] at hnat
  exact hne hnat

lemma mem_crowd {r : Record} (h : r ∈ crowd) :
    r = ⟨"a", soon, 3599⟩ ∨ ∃ i < 8191, r = ⟨"a", .v4 (BitVec.ofNat 32 (i + 1)), 3600⟩ := by
  rw [crowd, List.mem_cons, List.mem_map] at h
  rcases h with h | ⟨i, hi, rfl⟩
  · exact .inl h
  · exact .inr ⟨i, List.mem_range.1 hi, rfl⟩

lemma crowd_nodup : (crowd.map (·.address)).Nodup := by
  rw [crowd, List.map_cons, List.map_map, List.nodup_cons]
  constructor
  · intro hmem
    obtain ⟨i, hi, heq⟩ := List.mem_map.1 hmem
    rw [List.mem_range] at hi
    exact v4_ne (by omega) (by omega) (Nat.succ_ne_zero i) heq
  · refine List.Nodup.map_on (fun i hi j hj heq => ?_) List.nodup_range
    rw [List.mem_range] at hi hj
    by_contra hne
    exact v4_ne (by omega) (by omega) (fun h => hne (Nat.succ.inj h)) heq

lemma crowd_length : crowd.length = 8192 := by
  rw [crowd, List.length_cons, List.length_map, List.length_range]

lemma lifetime_crowd : (lifetime 3599).asMillis = 3599000 ∧ (lifetime 3600).asMillis = 3600000 ∧
    (lifetime 30).asMillis = 600000 := by decide

lemma crowd_after : (after ∅ (crowd.map (.entry .asHeld 0 "a"))).size =
      (∅ : Held).size + crowd.length ∧
    ∀ b y, expiry (after ∅ (crowd.map (.entry .asHeld 0 "a"))) b = some y ↔
      expiry ∅ b = some y ∨ ∃ r ∈ crowd, r.address = b ∧ y = 0 + (lifetime r.ttl).asMillis :=
  after_new .asHeld 0 "a" crowd_nodup (fun r _ => by simp) (by rw [crowd_length]; decide)

lemma full_expiry {b : IpAddr} {y : ℕ} :
    expiry (after ∅ (crowd.map (.entry .asHeld 0 "a"))) b = some y ↔
      ∃ r ∈ crowd, r.address = b ∧ y = (lifetime r.ttl).asMillis := by
  obtain ⟨-, hexpiry⟩ := crowd_after
  rw [hexpiry]
  simp [expiry]

lemma full_soon : expiry (after ∅ (crowd.map (.entry .asHeld 0 "a"))) soon = some 3599000 :=
  full_expiry.2 ⟨_, List.mem_cons_self .., rfl, lifetime_crowd.1.symm⟩

lemma full_other {b : IpAddr} {y : ℕ}
    (h : expiry (after ∅ (crowd.map (.entry .asHeld 0 "a"))) b = some y) :
    b ≠ latecomer.address ∧ (b = soon ∨ y = 3600000) := by
  obtain ⟨r, hr, rfl, rfl⟩ := full_expiry.1 h
  rcases mem_crowd hr with rfl | ⟨i, hi, rfl⟩
  · exact ⟨v4_ne (by omega) (by omega) (by omega), .inl rfl⟩
  · exact ⟨v4_ne (by omega) (by omega) (by omega), .inr lifetime_crowd.2.1⟩

/-- The new address puts out the one that expires soonest. -/
lemma full_pushed : soon ∉
    (Event.entry .asHeld 0 "c" latecomer).apply (after ∅ (crowd.map (.entry .asHeld 0 "a"))) := by
  obtain ⟨hsize, -⟩ := crowd_after
  rw [crowd_length, Std.ExtTreeMap.size_empty, Nat.zero_add] at hsize
  have hfull : MAX_LEASES ≤ (after ∅ (crowd.map (.entry .asHeld 0 "a"))).size := hsize.ge
  have hsoon := full_soon
  have hother := fun b y => @full_other b y
  generalize after ∅ (crowd.map (.entry .asHeld 0 "a")) = held at hfull hsoon hother ⊢
  obtain ⟨victim, soonest, hvictim, hleast, herase⟩ :=
    evictOne_spec .asHeld (lt_of_lt_of_le (by decide) hfull)
  have hlatest : soonest ≤ 3599000 := hleast soon _ hsoon
  have hput : victim = soon := by
    rcases (hother victim soonest hvictim).2 with hput | hlater
    · exact hput
    · omega
  have hnew : held[latecomer.address]? = none := by
    cases hl : held[latecomer.address]? with
    | none => rfl
    | some lease =>
      have hheld : expiry held latecomer.address = some lease.expiresMs := by rw [expiry, hl]; rfl
      exact absurd rfl (hother _ _ hheld).1
  have hne : latecomer.address ≠ soon := v4_ne (by omega) (by omega) (by omega)
  rw [mem_iff_expiry, entry_full hnew hfull herase hne, if_pos hput]
  simp

/-- **One answer can make an expiry earlier**: it puts the address out for another and takes it in
again for a shorter time. -/
theorem record_shortens :
    expiry (runCalls 0 [.record .asHeld "a" crowd 0]).held soon = some 3599000 ∧
    expiry (runCalls 0 [.record .asHeld "a" crowd 0, pushing]).held soon = some 600000 := by
  have hevents : Call.events 0 (.record .asHeld "a" crowd 0) =
      crowd.map (.entry .asHeld 0 "a") := rfl
  have hpushing : Call.events 0 pushing =
      [.entry .asHeld 0 "c" latecomer, .entry .asHeld 0 "c" ⟨"a", soon, 30⟩] := rfl
  constructor
  · rw [(runCalls_held 0 _).1, List.flatMap_singleton, hevents]
    exact full_soon
  · rw [(runCalls_held 0 _).1, List.flatMap_cons, List.flatMap_singleton, hevents, hpushing,
      after_append, after_cons, after_cons, after_nil]
    have hout := full_pushed
    rw [mem_iff_expiry, Option.not_isSome_iff_eq_none] at hout
    rw [entry_named _ .asHeld 0 "c" ⟨"a", soon, 30⟩, hout, lifetime_crowd.2.2]
    rfl

end Masqr.Dns.Leases
