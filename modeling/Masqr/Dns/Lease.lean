import Mathlib
import Masqr.Lib.Select
import Masqr.Time
import Masqr.Dns.Message

/-!
How long an address stays routed because a name resolved to it.
-/

namespace Masqr.Dns

open Masqr.Lib

/-- The shortest a lease may be. -/
def MIN_LEASE : Duration := .secs 600

/-- The longest a lease may be, whatever a record claims. -/
def MAX_LEASE : Duration := .secs 3600

/-- How many addresses may be held at once. -/
def MAX_LEASES : ℕ := 8192

/-- When an address is let go of, in milliseconds from the table's own start, and the names
that produced it. -/
structure Lease where
  expiresMs : ℕ
  names : Std.ExtTreeSet String

abbrev Held := Std.ExtTreeMap IpAddr Lease

/-- The addresses the tunnel carries on account of DNS. -/
structure Leases where
  base : Instant
  held : Held

namespace Leases

def new (now : Instant) : Leases := ⟨now, ∅⟩

def millis (l : Leases) (now : Instant) : ℕ := (now.since l.base).asMillis

/-- A record's time to live, brought inside the bounds a route can live with. -/
def lifetime (ttl : ℕ) : Duration := max MIN_LEASE (min MAX_LEASE (.secs ttl))

/-- Make room by dropping the lease that expires soonest, the first one met of those. -/
def evictOne (walk : Walk (IpAddr × Lease)) (held : Held) : Held :=
  match minByKey (fun entry => entry.2.expiresMs) (walk.order held.toList) with
  | some (address, _) => held.erase address
  | none => held

/-- One record taken in, and whether an address was added. -/
def recordOne (walk : Walk (IpAddr × Lease)) (nowMs : ℕ) (name : String) (s : Held × Bool)
    (record : Record) : Held × Bool :=
  let expiresMs := nowMs + (lifetime record.ttl).asMillis
  match s.1[record.address]? with
  | some lease =>
    (s.1.insert record.address ⟨max lease.expiresMs expiresMs, lease.names.insert name⟩, s.2)
  | none =>
    let held := if MAX_LEASES ≤ s.1.size then evictOne walk s.1 else s.1
    (held.insert record.address ⟨expiresMs, Std.ExtTreeSet.empty.insert name⟩, true)

/-- Take in what an answer said, and say whether the set of held addresses changed. -/
def record (l : Leases) (walk : Walk (IpAddr × Lease)) (name : String) (records : List Record)
    (now : Instant) : Bool × Leases :=
  if records.isEmpty then (false, l)
  else
    let s := records.foldl (recordOne walk (l.millis now) name) (l.held, false)
    (s.2, { l with held := s.1 })

/-- Renew the lease on an address that is carrying traffic. -/
def touch (l : Leases) (address : IpAddr) (now : Instant) : Leases :=
  match l.held[address]? with
  | some lease =>
    let floor := l.millis now + MIN_LEASE.asMillis
    { l with held := l.held.insert address { lease with expiresMs := max lease.expiresMs floor } }
  | none => l

/-- Let go of everything whose time has passed, and say whether anything was let go. -/
def expire (l : Leases) (now : Instant) : Bool × Leases :=
  let held := l.held.filter fun _ lease => decide (l.millis now < lease.expiresMs)
  (decide (held.size ≠ l.held.size), { l with held := held })

/-- Every address held right now. -/
def addresses (l : Leases) : List IpAddr := l.held.keys

/-- Why an address is held. -/
def namesFor (l : Leases) (address : IpAddr) : List String :=
  match l.held[address]? with
  | some lease => lease.names.toList
  | none => []

def len (l : Leases) : ℕ := l.held.size

/-! ### Which addresses are held -/

variable {l : Leases} {walk : Walk (IpAddr × Lease)} {nowMs : ℕ} {name : String} {a : IpAddr}

@[simp] lemma mem_addresses : a ∈ l.addresses ↔ a ∈ l.held := by
  unfold addresses
  rw [Std.ExtTreeMap.mem_keys]

lemma mem_insert {held : Held} {address : IpAddr} {lease : Lease} :
    a ∈ held.insert address lease ↔ address = a ∨ a ∈ held := by
  rw [Std.ExtTreeMap.mem_insert, Std.LawfulEqCmp.compare_eq_iff_eq]

lemma mem_of_getElem? {held : Held} {lease : Lease} (h : held[a]? = some lease) : a ∈ held :=
  Std.ExtTreeMap.mem_iff_isSome_getElem?.mpr (by rw [h]; rfl)

lemma mem_evictOne {held : Held} (h : a ∈ evictOne walk held) : a ∈ held := by
  unfold evictOne at h
  split at h
  · exact Std.ExtTreeMap.mem_of_mem_erase h
  · exact h

lemma evictOne_size (held : Held) : held.size ≤ (evictOne walk held).size + 1 := by
  unfold evictOne
  split
  · exact Std.ExtTreeMap.size_le_size_erase
  · exact Nat.le_succ _

/-- A record of a held address changes no address. -/
lemma recordOne_held {s : Held × Bool} {r : Record} (h : r.address ∈ s.1) :
    (a ∈ (recordOne walk nowMs name s r).1 ↔ a ∈ s.1) ∧
      (recordOne walk nowMs name s r).2 = s.2 ∧
        (recordOne walk nowMs name s r).1.size = s.1.size := by
  obtain ⟨lease, hl⟩ := Option.isSome_iff_exists.mp (Std.ExtTreeMap.mem_iff_isSome_getElem?.mp h)
  simp only [recordOne, hl, mem_insert]
  refine ⟨⟨?_, .inr⟩, trivial, ?_⟩
  · rintro (rfl | ha)
    · exact h
    · exact ha
  · rw [Std.ExtTreeMap.size_insert, if_pos (Std.ExtTreeMap.contains_iff_mem.mpr h)]

/-- A record of a new address adds it, and where there was room that is all it does. -/
lemma recordOne_new {s : Held × Bool} {r : Record} (h : r.address ∉ s.1) :
    (s.1.size < MAX_LEASES →
        (a ∈ (recordOne walk nowMs name s r).1 ↔ r.address = a ∨ a ∈ s.1)) ∧
      (recordOne walk nowMs name s r).2 = true ∧
        s.1.size ≤ (recordOne walk nowMs name s r).1.size := by
  have hl : s.1[r.address]? = none := by
    rw [← Option.not_isSome_iff_eq_none, ← Std.ExtTreeMap.mem_iff_isSome_getElem?]
    exact h
  simp only [recordOne, hl, mem_insert]
  refine ⟨fun hroom => ?_, trivial, ?_⟩
  · rw [if_neg (Nat.not_le.mpr hroom)]
  · split_ifs
    · have hn : r.address ∉ evictOne walk s.1 := fun hm => h (mem_evictOne hm)
      rw [Std.ExtTreeMap.size_insert, if_neg (by simpa using hn)]
      exact evictOne_size s.1
    · exact Std.ExtTreeMap.size_le_size_insert

lemma recordOne_size (s : Held × Bool) (r : Record) :
    s.1.size ≤ (recordOne walk nowMs name s r).1.size := by
  by_cases h : r.address ∈ s.1
  · exact (recordOne_held (a := r.address) h).2.2.ge
  · exact (recordOne_new (a := r.address) h).2.2

lemma recordAll_size (s : Held × Bool) (records : List Record) :
    s.1.size ≤ (records.foldl (recordOne walk nowMs name) s).1.size := by
  induction records generalizing s with
  | nil => exact Nat.le_refl _
  | cons r records ih => exact (recordOne_size s r).trans (ih _)

lemma recordAll_true (s : Held × Bool) (records : List Record) (h : s.2 = true) :
    (records.foldl (recordOne walk nowMs name) s).2 = true := by
  induction records generalizing s with
  | nil => exact h
  | cons r records ih =>
    refine ih _ ?_
    by_cases hr : r.address ∈ s.1
    · rw [(recordOne_held (a := r.address) hr).2.1, h]
    · exact (recordOne_new (a := r.address) hr).2.1

/-- Records that are said to change nothing leave the same addresses held. -/
lemma recordAll_false {s : Held × Bool} {records : List Record}
    (h : (records.foldl (recordOne walk nowMs name) s).2 = false) :
    (a ∈ (records.foldl (recordOne walk nowMs name) s).1 ↔ a ∈ s.1) ∧
      ∀ r ∈ records, r.address ∈ s.1 := by
  induction records generalizing s with
  | nil => exact ⟨Iff.rfl, nofun⟩
  | cons r records ih =>
    rw [List.foldl_cons] at h
    have hr : r.address ∈ s.1 := by
      by_contra hr
      rw [recordAll_true _ _ (recordOne_new (a := r.address) hr).2.1] at h
      cases h
    obtain ⟨h1, h2⟩ := ih h
    refine ⟨h1.trans (recordOne_held hr).1, List.forall_mem_cons.mpr ⟨hr, fun q hq => ?_⟩⟩
    exact (recordOne_held hr).1.mp (h2 q hq)

/-- Where there is room for all of them, records add their addresses. -/
lemma mem_recordAll {s : Held × Bool} {records : List Record}
    (h : (records.foldl (recordOne walk nowMs name) s).1.size < MAX_LEASES) :
    a ∈ (records.foldl (recordOne walk nowMs name) s).1 ↔
      (∃ r ∈ records, r.address = a) ∨ a ∈ s.1 := by
  induction records generalizing s with
  | nil => simp
  | cons r records ih =>
    rw [List.foldl_cons] at h ⊢
    have hroom : s.1.size < MAX_LEASES :=
      ((recordOne_size s r).trans (recordAll_size _ records)).trans_lt h
    rw [ih h, List.exists_mem_cons_iff, or_assoc]
    by_cases hr : r.address ∈ s.1
    · rw [(recordOne_held hr).1]
      constructor
      · rintro (h | h)
        exacts [.inr (.inl h), .inr (.inr h)]
      · rintro (rfl | h | h)
        exacts [.inr hr, .inl h, .inr h]
    · rw [(recordOne_new hr).1 hroom]
      exact or_left_comm

variable {records : List Record} {now : Instant}

/-- **`record` says `false` only when the same addresses are held.** -/
theorem record_false (h : (l.record walk name records now).1 = false) :
    (a ∈ (l.record walk name records now).2.held ↔ a ∈ l.held) ∧
      ∀ r ∈ records, r.address ∈ l.held := by
  unfold record at h ⊢
  split_ifs at h ⊢ with hr
  · rw [List.isEmpty_iff.mp hr]
    exact ⟨Iff.rfl, nofun⟩
  · exact recordAll_false h

/-- **Where there is room, every address of an answer is held once it was recorded.** -/
theorem mem_record (h : (l.record walk name records now).2.held.size < MAX_LEASES) :
    a ∈ (l.record walk name records now).2.held ↔ (∃ r ∈ records, r.address = a) ∨ a ∈ l.held := by
  unfold record at h ⊢
  split_ifs at h ⊢ with hr
  · rw [List.isEmpty_iff.mp hr]
    simp
  · exact mem_recordAll h

/-- Use renews a lease and holds nothing new. -/
lemma mem_touch {address : IpAddr} : a ∈ (l.touch address now).held ↔ a ∈ l.held := by
  unfold touch
  split
  · next lease hl =>
    rw [mem_insert]
    refine ⟨?_, .inr⟩
    rintro (rfl | h)
    · exact mem_of_getElem? hl
    · exact h
  · rfl

/-- `expire` says `false` only when nothing was let go. -/
lemma expire_false (h : (l.expire now).1 = false) : (l.expire now).2 = l := by
  unfold expire at h ⊢
  rw [decide_eq_false_iff_not, not_not] at h
  have hall := Std.ExtTreeMap.filter_eq_self_iff.mpr (Std.ExtTreeMap.size_filter_eq_size_iff.mp h)
  dsimp only
  rw [hall]

end Leases

end Masqr.Dns
