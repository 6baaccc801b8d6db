import Mathlib
import Masqr.Lib.Bounded
import Masqr.Dns.History

/-!
Which address a full table loses for a new one: one in use, or one of the same answer.

Room is made of what expires soonest. Use lifts an expiry no further than `MIN_LEASE` ahead,
and so does a short answer; an answer nobody has used since may hold its address for longer.
-/

namespace Masqr.Dns.Leases

open Masqr.Lib

/-! ### What is put out -/

/-- In a walk that meets the wanted addresses first, one that is not wanted is put out only when
all the wanted expire later. -/
lemma evictOne_first (wanted : IpAddr → Bool) {held : Held} (h : 0 < held.size) :
    ∃ victim soonest, expiry held victim = some soonest ∧
      (∀ b later, expiry held b = some later → soonest ≤ later) ∧
      (wanted victim = true ∨
        ∀ b later, wanted b = true → expiry held b = some later → soonest < later) ∧
      evictOne (.first fun entry => wanted entry.1) held = held.erase victim := by
  obtain ⟨victim, lease, hmin, hmem, herase⟩ := evictOne_pick (.first fun e => wanted e.1) h
  have hin : ∀ {b later}, expiry held b = some later → ∃ lease',
      (b, lease') ∈ held.toList ∧ lease'.expiresMs = later := by
    intro b later hb
    obtain ⟨lease', hl, rfl⟩ := Option.map_eq_some_iff.mp hb
    exact ⟨lease', Std.ExtTreeMap.mem_toList_iff_getElem?_eq_some.mpr hl, rfl⟩
  refine ⟨victim, lease.expiresMs, by rw [expiry, hmem]; rfl, fun b later hb => ?_, ?_, herase⟩
  · obtain ⟨lease', hl, rfl⟩ := hin hb
    exact (minByKey_spec _ hmin).2 _ ((Walk.mem _).mpr hl)
  · rcases Walk.first_min _ hmin with hw | hlt
    · exact .inl hw
    · refine .inr fun b later hw hb => ?_
      obtain ⟨lease', hl, rfl⟩ := hin hb
      exact hlt _ hl hw

variable {held : Held} {r : Record} {a : IpAddr} {nowMs : ℕ} {name : String}

lemma getElem?_eq_none (h : a ∉ held) : held[a]? = none := by
  rw [← Option.not_isSome_iff_eq_none, ← Std.ExtTreeMap.mem_iff_isSome_getElem?]
  exact h

/-- In a full table the one address that expires sooner than all others goes for a new one. -/
lemma only_soonest (walk : Walk (IpAddr × Lease)) (hfull : MAX_LEASES ≤ held.size)
    (hnew : r.address ∉ held) {x : ℕ} (hx : expiry held a = some x)
    (hlater : ∀ b y, expiry held b = some y → b ≠ a → x < y) :
    (Event.entry walk nowMs name r).Evicts held a := by
  have hin : a ∈ held := by
    rw [mem_iff_expiry, hx]
    rfl
  have hne : r.address ≠ a := fun h => hnew (h ▸ hin)
  obtain ⟨victim, soonest, hvictim, hleast, herase⟩ :=
    evictOne_spec walk (lt_of_lt_of_le (by decide) hfull)
  have hv : victim = a := by
    by_contra hva
    have := hlater victim soonest hvictim hva
    have := hleast a x hx
    omega
  refine ⟨hin, ?_, walk, nowMs, name, r, rfl⟩
  rw [mem_iff_expiry, entry_full (getElem?_eq_none hnew) hfull herase hne, if_pos hv]
  simp

/-- An address that nothing expires sooner than goes for a new one in some walk. -/
lemma soonest_goes (hfull : MAX_LEASES ≤ held.size) (hnew : r.address ∉ held) {x : ℕ}
    (hx : expiry held a = some x) (hleast : ∀ b y, expiry held b = some y → x ≤ y) :
    (Event.entry (.first fun entry => decide (entry.1 = a)) nowMs name r).Evicts held a := by
  have hin : a ∈ held := by
    rw [mem_iff_expiry, hx]
    rfl
  have hne : r.address ≠ a := fun h => hnew (h ▸ hin)
  obtain ⟨victim, soonest, hvictim, -, hfirst, herase⟩ :=
    evictOne_first (fun b => decide (b = a)) (lt_of_lt_of_le (by decide) hfull)
  have hv : victim = a := by
    rcases hfirst with hv | hlater
    · exact of_decide_eq_true hv
    · have := hlater a x (decide_eq_true rfl) hx
      have := hleast victim soonest hvictim
      omega
  refine ⟨hin, ?_, _, nowMs, name, r, rfl⟩
  rw [mem_iff_expiry, entry_full (getElem?_eq_none hnew) hfull herase hne, if_pos hv]
  simp

/-! ### An address in use -/

def Call.time : Call → Instant
  | .record _ _ _ now => now
  | .touch _ now => now
  | .expire now => now

/-- The call records the address or touches it. -/
def Call.Names (a : IpAddr) : Call → Prop
  | .record _ _ records _ => ∃ r ∈ records, r.address = a
  | .touch address _ => address = a
  | .expire _ => False

/-- The calls insert a record into a full table: after some calls, and the records before it of
its own call. -/
structure Inserts (base : Instant) (calls before : List Call) (taken : List Record) (r : Record)
    (name : String) (now : Instant) (held : Held) : Prop where
  made : ∃ walk rest later, calls = before ++ .record walk name (taken ++ r :: rest) now :: later ∧
    held = after (runCalls base before).held
      (taken.map (.entry walk (now.since base).asMillis name))
  new : r.address ∉ held
  full : MAX_LEASES ≤ held.size

/-- The address was touched within the last `MIN_LEASE`. -/
def InUse (before : List Call) (now : Instant) (a : IpAddr) : Prop :=
  ∃ time, .touch a time ∈ before ∧ now.since time ≤ MIN_LEASE

/-- The address was neither recorded nor touched within the last `MIN_LEASE`. -/
def Idle (before : List Call) (taken : List Record) (now : Instant) (a : IpAddr) : Prop :=
  (∀ c ∈ before, c.Names a → MIN_LEASE < now.since c.time) ∧ ∀ r ∈ taken, r.address ≠ a

/-- **No address in use goes while an idle one could exactly where**, whenever a full table with
an idle address in it takes in a new one, every address in use has one that expires sooner. -/
theorem in_use_kept_iff (base : Instant) (calls : List Call) :
    (∀ before taken r name now held, Inserts base calls before taken r name now held →
      ∀ a b, InUse before now a → b ∈ held → Idle before taken now b → ∀ walk,
        ¬ (Event.entry walk (now.since base).asMillis name r).Evicts held a) ↔
    ∀ before taken r name now held, Inserts base calls before taken r name now held →
      ∀ a b x, InUse before now a → b ∈ held → Idle before taken now b →
        expiry held a = some x → ∃ c y, expiry held c = some y ∧ y < x := by
  constructor
  · intro h before taken r name now held hins a b x huse hb hidle hx
    by_contra hnone
    refine h before taken r name now held hins a b huse hb hidle _
      (soonest_goes hins.full hins.new hx fun c y hc => ?_)
    by_contra hlt
    exact hnone ⟨c, y, hc, Nat.not_le.mp hlt⟩
  · intro h before taken r name now held hins a b huse hb hidle walk hevicts
    obtain ⟨-, -, soonest, hs, hleast⟩ := evicts_cause hevicts
    obtain ⟨c, y, hc, hlt⟩ := h before taken r name now held hins a b soonest huse hb hidle hs
    exact absurd (hleast c y hc) (Nat.not_le.mpr hlt)

/-- A table filled at the start, and its first address touched after five minutes. -/
def crowded : List Call := [.record .asHeld "a" crowd 0, .touch soon (Duration.secs 300)]

lemma crowded_held : (runCalls 0 crowded).held =
    (Event.touch 300000 soon).apply (after ∅ (crowd.map (.entry .asHeld 0 "a"))) := by
  have hevents : crowded.flatMap (Call.events 0) =
      crowd.map (.entry .asHeld 0 "a") ++ [.touch 300000 soon] := by
    simp [crowded, Call.events, Instant.since, Duration.asMillis, Duration.secs]
  rw [(runCalls_held 0 crowded).1, hevents, after_append, after_cons, after_nil]

/-- The floor that use sets is before the expiry that the answer gave. -/
lemma crowded_expiry {b : IpAddr} {y : ℕ} : expiry (runCalls 0 crowded).held b = some y ↔
    expiry (after ∅ (crowd.map (.entry .asHeld 0 "a"))) b = some y := by
  rw [crowded_held, touch_expiry]
  split
  · next hb =>
    subst hb
    have hfloor : max 3599000 (300000 + MIN_LEASE.asMillis) = 3599000 := by decide
    rw [full_soon, Option.map_some, hfloor]
  · rfl

def unused : IpAddr := .v4 (BitVec.ofNat 32 1)

lemma full_unused : expiry (after ∅ (crowd.map (.entry .asHeld 0 "a"))) unused = some 3600000 := by
  refine full_expiry.mpr ⟨⟨"a", unused, 3600⟩, List.mem_cons_of_mem _ ?_, rfl,
    lifetime_crowd.2.1.symm⟩
  exact List.mem_map.mpr ⟨0, List.mem_range.mpr (by omega), rfl⟩

lemma crowded_other {b : IpAddr} {y : ℕ} (h : expiry (runCalls 0 crowded).held b = some y) :
    b ≠ latecomer.address ∧ (b = soon ∨ y = 3600000) := full_other (crowded_expiry.mp h)

lemma crowded_inserts : Inserts 0
    (crowded ++ [.record .asHeld "c" [latecomer] (Duration.secs 700)]) crowded [] latecomer "c"
    (Duration.secs 700) (runCalls 0 crowded).held where
  made := ⟨.asHeld, [], [], rfl, by rw [List.map_nil, after_nil]⟩
  new := by
    intro hin
    obtain ⟨y, hy⟩ := Option.isSome_iff_exists.mp (mem_iff_expiry.mp hin)
    exact (crowded_other hy).1 rfl
  full := by
    rw [crowded_held, touch_size, crowd_after.1, crowd_length, Std.ExtTreeMap.size_empty,
      Nat.zero_add, MAX_LEASES]

lemma crowded_idle : Idle crowded [] (Duration.secs 700) unused := by
  refine ⟨fun c hc hnames => ?_, fun r hr => absurd hr List.not_mem_nil⟩
  rcases List.mem_pair.mp hc with rfl | rfl
  · decide
  · exact absurd hnames (v4_ne (by omega) (by omega) (by omega))

/-- The address in use is put out after twelve minutes, though nothing else was used since. -/
theorem in_use_put_out : ¬ ∀ (base : Instant) (calls : List Call),
    (∀ c ∈ calls, base ≤ c.time) → calls.Pairwise (fun c d => c.time ≤ d.time) →
    ∀ before taken r name now held, Inserts base calls before taken r name now held →
      ∀ a b, InUse before now a → b ∈ held → Idle before taken now b → ∀ walk,
        ¬ (Event.entry walk (now.since base).asMillis name r).Evicts held a := by
  intro h
  have hunused : unused ∈ (runCalls 0 crowded).held := by
    rw [mem_iff_expiry, crowded_expiry.mpr full_unused]
    rfl
  refine h 0 _ (fun c _ => Nat.zero_le _) ?_ crowded [] latecomer "c" _ _ crowded_inserts soon
    unused ⟨Duration.secs 300, by simp [crowded], by decide⟩ hunused crowded_idle .asHeld ?_
  · simp [crowded, Call.time, Duration.secs]
  · refine only_soonest .asHeld crowded_inserts.full crowded_inserts.new
      (crowded_expiry.mpr full_soon) fun b y hb hne => ?_
    have := (crowded_other hb).2.resolve_left hne
    omega

/-! ### The addresses of one answer -/

/-- The addresses held, ranked by when they expire. -/
def ranked (held : Held) : Ranked IpAddr := ⟨held.keys.toFinset, fun a => (expiry held a).getD 0⟩

/-- The addresses of an answer, and the expiry it gives each. -/
def offers (nowMs : ℕ) (records : List Record) : List (IpAddr × ℕ) :=
  records.map fun r => (r.address, nowMs + (lifetime r.ttl).asMillis)

lemma mem_ranked : a ∈ (ranked held).keys ↔ a ∈ held := by
  rw [ranked, List.mem_toFinset, Std.ExtTreeMap.mem_keys]

lemma card_ranked (held : Held) : (ranked held).keys.card = held.size := by
  rw [ranked, List.toFinset_card_of_nodup Std.ExtTreeMap.nodup_keys, Std.ExtTreeMap.length_keys]

lemma rank_of_expiry {x : ℕ} (h : expiry held a = some x) : (ranked held).rank a = x := by
  simp [ranked, h]

lemma expiry_of_mem (h : a ∈ held) : expiry held a = some ((ranked held).rank a) := by
  obtain ⟨x, hx⟩ := Option.isSome_iff_exists.mp (mem_iff_expiry.mp h)
  rw [hx, rank_of_expiry hx]

@[simp] lemma mem_named_offers {records : List Record} :
    a ∈ Ranked.named (offers nowMs records) ↔ ∃ r ∈ records, r.address = a := by
  simp [Ranked.named, offers]

lemma entry_rest {walk : Walk (IpAddr × Lease)}
    (hk : a ∈ (Event.entry walk nowMs name r).apply held) (hne : a ≠ r.address) :
    expiry ((Event.entry walk nowMs name r).apply held) a = expiry held a := by
  have hdue : (Event.entry walk nowMs name r).due a = none := if_neg (Ne.symm hne)
  cases entry_effect held a walk nowMs name r with
  | entered hdue' h => rw [hdue] at hdue'; cases hdue'
  | touched hdue' h => rw [hdue] at hdue'; cases hdue'
  | untouched hdue hl h => exact h
  | evicted he hfull hnew hs hleast => exact absurd hk he.2.1
  | expired he h => cases he

/-- **An entry puts its address into the table**, and makes room of one that expires soonest. -/
lemma entry_put {drops : Ranked IpAddr → IpAddr → Prop} (walk : Walk (IpAddr × Lease))
    (hdrops : MAX_LEASES ≤ held.size → ∃ victim soonest, expiry held victim = some soonest ∧
      (∀ b later, expiry held b = some later → soonest ≤ later) ∧ drops (ranked held) victim ∧
      evictOne walk held = held.erase victim) :
    Ranked.Put MAX_LEASES drops (ranked held) (r.address, nowMs + (lifetime r.ttl).asMillis)
      (ranked ((Event.entry walk nowMs name r).apply held)) where
  self := by
    rw [rank_of_expiry (entry_named held walk nowMs name r)]
    simp only [mem_ranked]
    split
    · rfl
    · next hnew =>
      rw [expiry, getElem?_eq_none hnew]
      exact Nat.zero_max _
  rest k hk hne := by
    rw [mem_ranked] at hk
    simp only [ranked, entry_rest hk hne]
  keys := by
    simp only [mem_ranked, card_ranked]
    by_cases hin : r.address ∈ held
    · refine .inl ⟨hin, Finset.ext fun k => ?_⟩
      rw [mem_ranked, mem_ranked]
      exact (recordOne_held (s := (held, false)) hin).1
    by_cases hroom : held.size < MAX_LEASES
    · refine .inr (.inl ⟨hin, hroom, Finset.ext fun k => ?_⟩)
      rw [mem_ranked, Finset.mem_insert, mem_ranked, eq_comm]
      exact (recordOne_new (s := (held, false)) hin).1 hroom
    · have hfull := Nat.not_lt.mp hroom
      obtain ⟨victim, soonest, hvictim, hleast, hdrop, herase⟩ := hdrops hfull
      refine .inr (.inr ⟨hin, hfull, victim, ?_, fun k hk => ?_, hdrop, Finset.ext fun k => ?_⟩)
      · rw [mem_iff_expiry, hvictim]
        rfl
      · rw [rank_of_expiry hvictim]
        exact hleast k _ (expiry_of_mem hk)
      · rw [mem_ranked, Finset.mem_insert, Finset.mem_erase, mem_ranked, mem_iff_expiry]
        by_cases hk : r.address = k
        · subst hk
          simp [entry_named held walk nowMs name r]
        · rw [entry_full (getElem?_eq_none hin) hfull herase hk]
          split
          · next hv => simp [hv, Ne.symm hk]
          · next hv => simp [mem_iff_expiry, Ne.symm hk, Ne.symm hv]

lemma record_puts {drops : Ranked IpAddr → IpAddr → Prop} (walk : Walk (IpAddr × Lease))
    (hdrops : ∀ held : Held, MAX_LEASES ≤ held.size → ∃ victim soonest,
      expiry held victim = some soonest ∧
      (∀ b later, expiry held b = some later → soonest ≤ later) ∧ drops (ranked held) victim ∧
      evictOne walk held = held.erase victim)
    (held : Held) (nowMs : ℕ) (name : String) (records : List Record) :
    Ranked.Puts MAX_LEASES drops (ranked held) (offers nowMs records)
      (ranked (after held (records.map (.entry walk nowMs name)))) := by
  induction records generalizing held with
  | nil => rfl
  | cons r records ih => exact ⟨_, entry_put walk (hdrops held), ih _⟩

/-- In any walk the records of an answer are put into the table one after another. -/
lemma puts_any (walk : Walk (IpAddr × Lease)) (held : Held) (nowMs : ℕ) (name : String)
    (records : List Record) :
    Ranked.Puts MAX_LEASES (fun _ _ => True) (ranked held) (offers nowMs records)
      (ranked (after held (records.map (.entry walk nowMs name)))) := by
  refine record_puts walk (fun held hfull => ?_) held nowMs name records
  obtain ⟨victim, soonest, hvictim, hleast, herase⟩ :=
    evictOne_spec walk (lt_of_lt_of_le (by decide) hfull)
  exact ⟨victim, soonest, hvictim, hleast, trivial, herase⟩

/-- In a walk that meets the wanted addresses first they are spared wherever they may be. -/
lemma puts_sparing (wanted : Finset IpAddr) (held : Held) (nowMs : ℕ) (name : String)
    (records : List Record) :
    Ranked.Puts MAX_LEASES (Ranked.Spares wanted) (ranked held) (offers nowMs records)
      (ranked (after held
        (records.map (.entry (.first fun entry => decide (entry.1 ∈ wanted)) nowMs name)))) := by
  refine record_puts _ (fun held hfull => ?_) held nowMs name records
  obtain ⟨victim, soonest, hvictim, hleast, hfirst, herase⟩ :=
    evictOne_first (fun a => decide (a ∈ wanted)) (lt_of_lt_of_le (by decide) hfull)
  refine ⟨victim, soonest, hvictim, hleast, fun hv k hk hin => ?_, herase⟩
  have hlater := hfirst.resolve_left fun hw => hv (of_decide_eq_true hw)
  rw [rank_of_expiry hvictim]
  exact hlater k _ (decide_eq_true hk) (expiry_of_mem (mem_ranked.mp hin))

lemma getElem?_evictOne {walk : Walk (IpAddr × Lease)} {lease : Lease}
    (h : (evictOne walk held)[a]? = some lease) : held[a]? = some lease := by
  unfold evictOne at h
  split at h
  · rw [Std.ExtTreeMap.getElem?_erase] at h
    split at h
    · cases h
    · exact h
  · exact h

lemma getElem?_insert {address : IpAddr} {lease lease' : Lease}
    (h : (held.insert address lease')[a]? = some lease) :
    (address = a ∧ lease = lease') ∨ (address ≠ a ∧ held[a]? = some lease) := by
  simp only [Std.ExtTreeMap.getElem?_insert, Std.LawfulEqCmp.compare_eq_iff_eq] at h
  split at h
  · next ha => exact .inl ⟨ha, (Option.some.inj h).symm⟩
  · next ha => exact .inr ⟨ha, h⟩

/-- An entry adds the name to its own address, and nothing to another. -/
lemma entry_names {walk : Walk (IpAddr × Lease)} {lease : Lease}
    (h : ((Event.entry walk nowMs name r).apply held)[a]? = some lease) :
    (r.address = a ∧ name ∈ lease.names) ∨ (r.address ≠ a ∧ held[a]? = some lease) := by
  have hname : ∀ names : Std.ExtTreeSet String, name ∈ names.insert name := fun names =>
    Std.ExtTreeSet.mem_insert.mpr (.inl Std.ReflCmp.compare_self)
  simp only [Event.apply, recordOne] at h
  cases hl : held[r.address]? with
  | some lease' =>
    rw [hl] at h
    rcases getElem?_insert h with ⟨ha, rfl⟩ | hother
    · exact .inl ⟨ha, hname _⟩
    · exact .inr hother
  | none =>
    rw [hl] at h
    rcases getElem?_insert h with ⟨ha, rfl⟩ | ⟨ha, hother⟩
    · exact .inl ⟨ha, hname _⟩
    · refine .inr ⟨ha, ?_⟩
      split at hother
      · exact getElem?_evictOne hother
      · exact hother

/-- What is held of the addresses of an answer is held for its name. -/
lemma names_recorded {walk : Walk (IpAddr × Lease)} {records : List Record}
    (hr : ∃ r ∈ records, r.address = a) {lease : Lease}
    (h : (after held (records.map (.entry walk nowMs name)))[a]? = some lease) :
    name ∈ lease.names := by
  induction records using List.reverseRecOn generalizing lease with
  | nil => simp at hr
  | append_singleton records r ih =>
    rw [List.map_append, after_append, List.map_singleton, after_cons, after_nil] at h
    rcases entry_names h with ⟨-, hname⟩ | ⟨hne, h⟩
    · exact hname
    · obtain ⟨q, hq, hqa⟩ := hr
      rcases List.mem_append.mp hq with hq | hq
      · exact ih ⟨q, hq, hqa⟩ h
      · rw [List.mem_singleton.mp hq] at hqa
        exact absurd hqa hne

/-- An address of an answer that is held is held for its name. -/
lemma namesFor_recorded {l : Leases} {walk : Walk (IpAddr × Lease)} {records : List Record}
    {now : Instant} (hr : ∃ r ∈ records, r.address = a)
    (h : a ∈ (l.record walk name records now).2.held) :
    name ∈ (l.record walk name records now).2.namesFor a := by
  have hheld : (l.record walk name records now).2.held = _ :=
    (perform_held l (.record walk name records now)).1
  obtain ⟨lease, hl⟩ := Option.isSome_iff_exists.mp (Std.ExtTreeMap.mem_iff_isSome_getElem?.mp h)
  have hname : name ∈ lease.names := by
    rw [hheld] at hl
    exact names_recorded hr hl
  simp only [namesFor, hl]
  exact Std.ExtTreeSet.mem_toList.mpr hname

lemma record_held (base : Instant) (calls : List Call) (walk : Walk (IpAddr × Lease))
    (name : String) (records : List Record) (now : Instant) :
    ((runCalls base calls).record walk name records now).2.held =
      after (runCalls base calls).held
        (records.map (.entry walk (now.since base).asMillis name)) := by
  have hheld := (perform_held (runCalls base calls) (.record walk name records now)).1
  rw [(runCalls_held base calls).2] at hheld
  exact hheld

/-- **Every address of an answer is held once it was recorded exactly where** the table has room
for them all, or for some record every other address of the answer is held or was recorded by then
to outlast as many of the addresses held for other answers as have to go. -/
theorem answer_held_iff (base : Instant) (calls : List Call) (name : String)
    (records : List Record) (now : Instant) :
    (∀ walk, ∀ r ∈ records,
      r.address ∈ ((runCalls base calls).record walk name records now).2.held ∧
      name ∈ ((runCalls base calls).record walk name records now).2.namesFor r.address) ↔
    Ranked.Lasting MAX_LEASES (ranked (runCalls base calls).held)
      (offers (now.since base).asMillis records) := by
  have hsize : (ranked (runCalls base calls).held).keys.card ≤ MAX_LEASES := by
    rw [card_ranked, (runCalls_held base calls).1]
    exact after_size (Nat.zero_le _) _
  constructor
  · intro h
    -- of equal expiry a walk may spare the addresses of the answer
    refine (puts_sparing _ _ _ name records).lasting hsize fun a ha => ?_
    obtain ⟨r, hr, rfl⟩ := mem_named_offers.mp ha
    rw [mem_ranked, ← record_held]
    exact (h _ r hr).1
  · intro h walk r hr
    have hin : r.address ∈ ((runCalls base calls).record walk name records now).2.held := by
      rw [record_held, ← mem_ranked]
      exact (puts_any walk _ _ name records).all hsize h (mem_named_offers.mpr ⟨r, hr, rfl⟩)
    exact ⟨hin, namesFor_recorded ⟨r, hr, rfl⟩ hin⟩

/-- In a full table where all expire later than a new address, the next one puts it out. -/
lemma next_puts_out (walk : Walk (IpAddr × Lease)) {q : Record} (hfull : MAX_LEASES ≤ held.size)
    (hq : q.address ∉ held) (hr : r.address ∉ held) (hne : r.address ≠ q.address)
    (hlater : ∀ b y, expiry held b = some y → nowMs + (lifetime q.ttl).asMillis < y) :
    q.address ∉ after held [.entry walk nowMs name q, .entry walk nowMs name r] := by
  have hnone : expiry held q.address = none := by rw [expiry, getElem?_eq_none hq]; rfl
  have hq' := entry_named held walk nowMs name q
  rw [hnone, Option.getD_none, Nat.zero_max] at hq'
  have hfull' : MAX_LEASES ≤ ((Event.entry walk nowMs name q).apply held).size :=
    hfull.trans (recordOne_size (held, false) q)
  have hr' : r.address ∉ (Event.entry walk nowMs name q).apply held := by
    intro hin
    have hsame := entry_rest hin hne
    rw [mem_iff_expiry, hsame, ← mem_iff_expiry] at hin
    exact hr hin
  rw [after_cons, after_cons, after_nil]
  refine (only_soonest walk hfull' hr' hq' fun b y hb hbq => hlater b y ?_).2.1
  have hin : b ∈ (Event.entry walk nowMs name q).apply held := by
    rw [mem_iff_expiry, hb]
    rfl
  rwa [entry_rest hin hbq] at hb

/-- An answer of two addresses that are believed for half a minute. -/
def brief : List Record :=
  [⟨"c", latecomer.address, 30⟩, ⟨"c", .v4 (BitVec.ofNat 32 8193), 30⟩]

/-- The second address of an answer puts out the first, where the table is full of addresses that
are held for longer. -/
theorem answer_lost : ¬ ∀ base calls walk name (records : List Record) now,
    (records.map (·.address)).toFinset.card ≤ MAX_LEASES → ∀ r ∈ records,
      r.address ∈ ((runCalls base calls).record walk name records now).2.held ∧
      name ∈ ((runCalls base calls).record walk name records now).2.namesFor r.address := by
  intro h
  have hcard : (brief.map (·.address)).toFinset.card ≤ MAX_LEASES :=
    (List.toFinset_card_le _).trans (by decide)
  have hlost := (h 0 [.record .asHeld "a" crowd 0] .asHeld "c" brief 0 hcard _
    List.mem_cons_self).1
  have hevents : [Call.record .asHeld "a" crowd 0].flatMap (Call.events 0) =
      crowd.map (.entry .asHeld 0 "a") := List.flatMap_singleton ..
  rw [record_held, (runCalls_held 0 _).1, hevents] at hlost
  refine next_puts_out .asHeld ?_ ?_ ?_ (v4_ne (by omega) (by omega) (by omega)) ?_ hlost
  · rw [crowd_after.1, crowd_length, Std.ExtTreeMap.size_empty, Nat.zero_add, MAX_LEASES]
  · intro hin
    obtain ⟨y, hy⟩ := Option.isSome_iff_exists.mp (mem_iff_expiry.mp hin)
    exact (full_other hy).1 rfl
  · intro hin
    obtain ⟨y, hy⟩ := Option.isSome_iff_exists.mp (mem_iff_expiry.mp hin)
    obtain ⟨r, hr, heq, -⟩ := full_expiry.mp hy
    rcases mem_crowd hr with rfl | ⟨i, hi, rfl⟩
    · exact v4_ne (by omega) (by omega) (by omega) heq
    · exact v4_ne (by omega) (by omega) (by omega) heq
  · intro b y hb
    rcases (full_other hb).2 with rfl | rfl
    · rw [full_soon] at hb
      obtain rfl := Option.some.inj hb
      decide
    · decide

end Masqr.Dns.Leases
