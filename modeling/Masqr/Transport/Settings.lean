import Mathlib
import Masqr.Transport.Http3

/-!
What the endpoint's SETTINGS say, whatever order and encoding they come in.
-/

namespace Masqr.Transport.Http3

open Masqr.Lib

namespace Setting

/-- Extended CONNECT. -/
def ENABLE_CONNECT_PROTOCOL : ℕ := 0x08

/-- HTTP datagrams. -/
def H3_DATAGRAM : ℕ := 0x33

/-- HTTP/2 settings HTTP/3 reserves. -/
def FROM_HTTP2 : List ℕ := [0x02, 0x03, 0x04, 0x05]

end Setting

/-- What the endpoint's SETTINGS say about the two things the tunnel needs. -/
structure PeerSettings where
  h3Datagram : Bool
  extendedConnect : Bool
  deriving DecidableEq

namespace PeerSettings

def default : PeerSettings := ⟨false, false⟩

/-- One setting taken in. -/
def set (s : PeerSettings) (id value : ℕ) : PeerSettings :=
  if id = Setting.H3_DATAGRAM then { s with h3Datagram := value == 1 }
  else if id = Setting.ENABLE_CONNECT_PROTOCOL then { s with extendedConnect := value == 1 }
  else s

/-- A payload on its way to being read: what is left of it, what it has said, and the identifiers
it has said it about. -/
structure Parsing where
  payload : List UInt8
  settings : PeerSettings
  seen : List ℕ

/-- One pair read. -/
def Parsing.pair (p : Parsing) : Parsing ⊕ Except H3Error PeerSettings :=
  if p.payload.isEmpty then .inr (.ok p.settings)
  else
    match Varint.get p.payload with
    | none => .inr (.error (.malformed "SETTINGS"))
    | some (id, idLen) =>
      match Varint.get (p.payload.drop idLen) with
      | none => .inr (.error (.malformed "SETTINGS"))
      | some (value, valueLen) =>
        if Setting.FROM_HTTP2.contains id then
          .inr (.error (.settings "carry an identifier reserved from HTTP/2"))
        else if p.seen.contains id then .inr (.error (.settings "repeat an identifier"))
        else .inl ⟨p.payload.drop (idLen + valueLen), p.settings.set id value, p.seen ++ [id]⟩

lemma Parsing.pair_eq (p : Parsing) : p.pair =
    if p.payload.isEmpty then .inr (.ok p.settings)
    else
      match Varint.header p.payload with
      | none => .inr (.error (.malformed "SETTINGS"))
      | some (id, value, used) =>
        if Setting.FROM_HTTP2.contains id then
          .inr (.error (.settings "carry an identifier reserved from HTTP/2"))
        else if p.seen.contains id then .inr (.error (.settings "repeat an identifier"))
        else .inl ⟨p.payload.drop used, p.settings.set id value, p.seen ++ [id]⟩ := by
  unfold Parsing.pair Varint.header
  cases Varint.get p.payload with
  | none => rfl
  | some front =>
    obtain ⟨id, idLen⟩ := front
    cases hv : Varint.get (p.payload.drop idLen) with
    | none => simp only [hv]
    | some second => simp only [hv]

lemma Parsing.pair_shorter {p p' : Parsing} (h : p.pair = .inl p') :
    p'.payload.length < p.payload.length := by
  rw [Parsing.pair_eq] at h
  split at h
  · cases h
  · split at h
    · cases h
    · next id value used hh =>
      obtain ⟨hpos, -, hused⟩ := Varint.header_some hh
      split at h
      · cases h
      · split at h
        · cases h
        · cases h
          simp only [List.length_drop]
          omega

def parsing : Loop Parsing (Except H3Error PeerSettings) where
  body := Parsing.pair
  measure p := p.payload.length
  lowers := Parsing.pair_shorter

/-- Read a SETTINGS payload. -/
def parse (payload : List UInt8) : Except H3Error PeerSettings :=
  parsing.run ⟨payload, default, []⟩

end PeerSettings

/-- Bytes that spell pairs of an identifier and a value, each in any length it fits. -/
inductive Pairs : List UInt8 → List (ℕ × ℕ) → Prop
  | nil : Pairs [] []
  | cons {idBytes valueBytes rest : List UInt8} {id value : ℕ} {pairs : List (ℕ × ℕ)} :
    Varint.Encodes idBytes id → Varint.Encodes valueBytes value → Pairs rest pairs →
    Pairs (idBytes ++ valueBytes ++ rest) ((id, value) :: pairs)

/-- A pair the payload begins with. -/
lemma Pairs.of_header {payload : List UInt8} {id value used : ℕ} {pairs : List (ℕ × ℕ)}
    (hh : Varint.header payload = some (id, value, used)) (h : Pairs (payload.drop used) pairs) :
    Pairs payload ((id, value) :: pairs) := by
  obtain ⟨idLen, valueLen, hid, hvalue, rfl⟩ := Varint.header_eq hh
  have hcons := Pairs.cons (Varint.get_take hid) (Varint.get_take hvalue) h
  rwa [← List.drop_drop, List.append_assoc, List.take_append_drop,
    List.take_append_drop] at hcons

namespace PeerSettings

/-! ### Pair by pair -/

/-- What becomes of pairs, one after another. -/
def judged (s : PeerSettings) (seen : List ℕ) :
    List (ℕ × ℕ) → Except H3Error PeerSettings
  | [] => .ok s
  | (id, value) :: pairs =>
    if Setting.FROM_HTTP2.contains id then
      .error (.settings "carry an identifier reserved from HTTP/2")
    else if seen.contains id then .error (.settings "repeat an identifier")
    else judged (s.set id value) (seen ++ [id]) pairs

lemma run_pairs {payload : List UInt8} {pairs : List (ℕ × ℕ)} (h : Pairs payload pairs)
    (s : PeerSettings) (seen : List ℕ) : parsing.run ⟨payload, s, seen⟩ = judged s seen pairs := by
  induction h generalizing s seen with
  | nil => exact parsing.run_stop rfl
  | @cons idBytes valueBytes rest id value pairs hid hvalue _ ih =>
    have hh := Varint.header_of_encodes hid hvalue rest
    have hfull : (idBytes ++ valueBytes ++ rest).isEmpty = false := by
      have hpos := hid.pos
      rw [List.isEmpty_eq_false_iff, ← List.length_pos_iff]
      simp only [List.length_append]
      omega
    have hpair := Parsing.pair_eq ⟨idBytes ++ valueBytes ++ rest, s, seen⟩
    simp only [hfull, hh, List.drop_left] at hpair
    rw [judged]
    by_cases hreserved : Setting.FROM_HTTP2.contains id = true
    · rw [if_pos hreserved] at hpair ⊢
      exact parsing.run_stop hpair
    · rw [if_neg hreserved] at hpair ⊢
      by_cases hseen : seen.contains id = true
      · rw [if_pos hseen] at hpair ⊢
        exact parsing.run_stop hpair
      · rw [if_neg hseen] at hpair ⊢
        rw [parsing.run_step hpair]
        exact ih _ _

/-- What is accepted is whole pairs. -/
lemma pairs_of_run {p : Parsing} {t : PeerSettings} :
    parsing.run p = .ok t → ∃ pairs, Pairs p.payload pairs := by
  refine parsing.run_rule (fun p result => result = .ok t → ∃ pairs, Pairs p.payload pairs)
    (fun p result hstop hok => ?_) (fun p p' result hstep ih hok => ?_) p
  · subst hok
    change p.pair = _ at hstop
    rw [Parsing.pair_eq] at hstop
    split at hstop
    · next hempty => exact ⟨[], by rw [List.isEmpty_iff.1 hempty]; exact .nil⟩
    · split at hstop
      · cases hstop
      · split at hstop
        · cases hstop
        · split at hstop <;> cases hstop
  · obtain ⟨pairs, hpairs⟩ := ih hok
    change p.pair = _ at hstep
    rw [Parsing.pair_eq] at hstep
    split at hstep
    · cases hstep
    · split at hstep
      · cases hstep
      · next id value used hh =>
        split at hstep
        · cases hstep
        · split at hstep
          · cases hstep
          · cases hstep
            exact ⟨_, .of_header hh hpairs⟩

/-- The identifiers are all different, none is taken and none is reserved. -/
def Distinct (seen : List ℕ) (pairs : List (ℕ × ℕ)) : Prop :=
  (pairs.map Prod.fst).Nodup ∧
    ∀ pair ∈ pairs, pair.1 ∉ Setting.FROM_HTTP2 ∧ pair.1 ∉ seen

lemma distinct_cons {seen : List ℕ} {id value : ℕ} {pairs : List (ℕ × ℕ)} :
    Distinct seen ((id, value) :: pairs) ↔
      id ∉ Setting.FROM_HTTP2 ∧ id ∉ seen ∧ Distinct (seen ++ [id]) pairs := by
  constructor
  · rintro ⟨hnodup, hall⟩
    obtain ⟨hnew, hrest⟩ := List.nodup_cons.1 hnodup
    obtain ⟨hreserved, hseen⟩ := hall _ List.mem_cons_self
    refine ⟨hreserved, hseen, hrest, fun pair hpair => ?_⟩
    obtain ⟨hreserved', hseen'⟩ := hall pair (List.mem_cons_of_mem _ hpair)
    refine ⟨hreserved', fun hmem => ?_⟩
    rcases List.mem_append.1 hmem with hmem | hmem
    · exact hseen' hmem
    · rw [← List.mem_singleton.1 hmem] at hnew
      exact hnew (List.mem_map.2 ⟨pair, hpair, rfl⟩)
  · rintro ⟨hreserved, hseen, hrest, hall⟩
    refine ⟨List.nodup_cons.2 ⟨fun hmem => ?_, hrest⟩, fun pair hpair => ?_⟩
    · obtain ⟨pair, hpair, heq⟩ := List.mem_map.1 hmem
      exact (hall pair hpair).2 (List.mem_append_right _ (List.mem_singleton.2 heq))
    · rcases List.mem_cons.1 hpair with rfl | hpair
      · exact ⟨hreserved, hseen⟩
      · obtain ⟨hreserved', hseen'⟩ := hall pair hpair
        exact ⟨hreserved', fun hmem => hseen' (List.mem_append_left _ hmem)⟩

lemma Distinct.perm {seen : List ℕ} {pairs pairs' : List (ℕ × ℕ)} (h : Distinct seen pairs)
    (hperm : pairs.Perm pairs') : Distinct seen pairs' :=
  ⟨(hperm.map Prod.fst).nodup_iff.1 h.1, fun pair hpair => h.2 pair (hperm.mem_iff.2 hpair)⟩

/-- The first pair at fault, and what is said of it. -/
def FirstFault (seen : List ℕ) (pairs : List (ℕ × ℕ)) (what : String) : Prop :=
  ∃ before pair after, pairs = before ++ pair :: after ∧ Distinct seen before ∧
    ((pair.1 ∈ Setting.FROM_HTTP2 ∧ what = "carry an identifier reserved from HTTP/2") ∨
      (pair.1 ∉ Setting.FROM_HTTP2 ∧ pair.1 ∈ seen ++ before.map Prod.fst ∧
        what = "repeat an identifier"))

lemma FirstFault.cons {seen : List ℕ} {id value : ℕ} {pairs : List (ℕ × ℕ)} {what : String}
    (hreserved : id ∉ Setting.FROM_HTTP2) (hseen : id ∉ seen)
    (h : FirstFault (seen ++ [id]) pairs what) : FirstFault seen ((id, value) :: pairs) what := by
  obtain ⟨before, pair, after, rfl, hbefore, hfault⟩ := h
  refine ⟨(id, value) :: before, pair, after, rfl,
    distinct_cons.2 ⟨hreserved, hseen, hbefore⟩, ?_⟩
  rwa [List.append_assoc, List.singleton_append] at hfault

/-- **Pairs are taken exactly where their identifiers are distinct**, and refused as settings
where they are not, for the first pair at fault. -/
lemma judged_cases (s : PeerSettings) (seen : List ℕ) (pairs : List (ℕ × ℕ)) :
    (Distinct seen pairs ∧ ∃ t, judged s seen pairs = .ok t) ∨
      (¬Distinct seen pairs ∧ ∃ what, judged s seen pairs = .error (.settings what) ∧
        FirstFault seen pairs what) := by
  induction pairs generalizing s seen with
  | nil => exact .inl ⟨⟨List.nodup_nil, by simp⟩, s, rfl⟩
  | cons pair pairs ih =>
    obtain ⟨id, value⟩ := pair
    rw [judged, distinct_cons]
    by_cases hreserved : id ∈ Setting.FROM_HTTP2
    · rw [if_pos (List.contains_iff_mem.2 hreserved)]
      exact .inr ⟨fun h => h.1 hreserved, _, rfl, [], (id, value), pairs, rfl,
        ⟨List.nodup_nil, by simp⟩, .inl ⟨hreserved, rfl⟩⟩
    · rw [if_neg fun h => hreserved (List.contains_iff_mem.1 h)]
      by_cases hseen : id ∈ seen
      · rw [if_pos (List.contains_iff_mem.2 hseen)]
        exact .inr ⟨fun h => h.2.1 hseen, _, rfl, [], (id, value), pairs, rfl,
          ⟨List.nodup_nil, by simp⟩, .inr ⟨hreserved, List.mem_append_left _ hseen, rfl⟩⟩
      · rw [if_neg fun h => hseen (List.contains_iff_mem.1 h)]
        rcases ih (s.set id value) (seen ++ [id]) with ⟨hdistinct, hok⟩ |
          ⟨hdistinct, what, hbad, hfault⟩
        · exact .inl ⟨⟨hreserved, hseen, hdistinct⟩, hok⟩
        · exact .inr ⟨fun h => hdistinct h.2.2, what, hbad, hfault.cons hreserved hseen⟩

/-- A flag that one identifier sets, and no other touches. -/
def Flag (flag : PeerSettings → Bool) (id : ℕ) : Prop :=
  (∀ s value, flag (set s id value) = (value == 1)) ∧
    ∀ s other value, other ≠ id → flag (set s other value) = flag s

lemma flag_h3Datagram : Flag h3Datagram Setting.H3_DATAGRAM := by
  refine ⟨fun s value => by rw [set, if_pos rfl], fun s other value hne => ?_⟩
  unfold set
  rw [if_neg hne]
  split_ifs <;> rfl

lemma flag_extendedConnect : Flag extendedConnect Setting.ENABLE_CONNECT_PROTOCOL := by
  refine ⟨fun s value => rfl, fun s other value hne => ?_⟩
  unfold set
  rw [if_neg hne]
  split_ifs <;> rfl

/-- **A flag is what the one pair of its identifier says.** -/
lemma Flag.judged_iff {flag : PeerSettings → Bool} {id : ℕ} (hflag : Flag flag id)
    {s t : PeerSettings} {seen : List ℕ} {pairs : List (ℕ × ℕ)}
    (hdistinct : Distinct seen pairs) (hok : judged s seen pairs = .ok t) :
    flag t = true ↔ (id, 1) ∈ pairs ∨ (flag s = true ∧ id ∉ pairs.map Prod.fst) := by
  induction pairs generalizing s seen with
  | nil =>
    obtain rfl : s = t := Except.ok.inj hok
    simp
  | cons pair pairs ih =>
    obtain ⟨other, value⟩ := pair
    obtain ⟨hreserved, hseen, hrest⟩ := distinct_cons.1 hdistinct
    rw [judged, if_neg fun h => hreserved (List.contains_iff_mem.1 h),
      if_neg fun h => hseen (List.contains_iff_mem.1 h)] at hok
    have hlater := ih hrest hok
    by_cases hsame : other = id
    · subst hsame
      have hnew : other ∉ pairs.map Prod.fst := (List.nodup_cons.1 hdistinct.1).1
      rw [hlater, hflag.1, beq_iff_eq]
      constructor
      · rintro (hmem | ⟨rfl, -⟩)
        · exact .inl (List.mem_cons_of_mem _ hmem)
        · exact .inl List.mem_cons_self
      · rintro (hmem | ⟨-, habsent⟩)
        · rcases List.mem_cons.1 hmem with heq | hmem
          · exact .inr ⟨(Prod.mk.inj heq).2.symm, hnew⟩
          · exact .inl hmem
        · exact absurd List.mem_cons_self habsent
    · rw [hlater, hflag.2 _ _ _ hsame]
      simp [Ne.symm hsame]

end PeerSettings

open PeerSettings

lemma parse_pairs {payload : List UInt8} {pairs : List (ℕ × ℕ)} (h : Pairs payload pairs) :
    parse payload = judged default [] pairs := run_pairs h default []

/-- **SETTINGS are accepted exactly where they are well formed**: whole pairs, in any encoding,
whose identifiers are distinct and not reserved. The two flags are what their pairs say, and neither
the encoding nor the order of the pairs changes the outcome, the text of a refusal apart: that is of
the first pair at fault, in the order they came. -/
theorem parse_wellFormed :
    (∀ payload, (∃ s, parse payload = .ok s) ↔ ∃ pairs, Pairs payload pairs ∧
      (pairs.map Prod.fst).Nodup ∧ ∀ pair ∈ pairs, pair.1 ∉ Setting.FROM_HTTP2) ∧
    (∀ payload pairs s, Pairs payload pairs → parse payload = .ok s →
      (s.h3Datagram = true ↔ (Setting.H3_DATAGRAM, 1) ∈ pairs) ∧
      (s.extendedConnect = true ↔ (Setting.ENABLE_CONNECT_PROTOCOL, 1) ∈ pairs)) ∧
    (∀ payload payload' pairs, Pairs payload pairs → Pairs payload' pairs →
      parse payload' = parse payload) ∧
    ∀ payload payload' pairs pairs', Pairs payload pairs → Pairs payload' pairs' →
      pairs.Perm pairs' → parse payload' = parse payload ∨
        ∃ what what', parse payload = .error (.settings what) ∧ FirstFault [] pairs what ∧
          parse payload' = .error (.settings what') ∧ FirstFault [] pairs' what' := by
  have hseen : ∀ pairs, Distinct [] pairs ↔ (pairs.map Prod.fst).Nodup ∧
      ∀ pair ∈ pairs, pair.1 ∉ Setting.FROM_HTTP2 := fun pairs =>
    and_congr_right fun _ => forall₂_congr fun pair _ => and_iff_left List.not_mem_nil
  have hflags : ∀ payload pairs s, Pairs payload pairs → parse payload = .ok s →
      (s.h3Datagram = true ↔ (Setting.H3_DATAGRAM, 1) ∈ pairs) ∧
      (s.extendedConnect = true ↔ (Setting.ENABLE_CONNECT_PROTOCOL, 1) ∈ pairs) := by
    intro payload pairs s hpairs hok
    rw [parse_pairs hpairs] at hok
    have hdistinct : Distinct [] pairs := by
      rcases judged_cases default [] pairs with ⟨h, -⟩ | ⟨-, what, hbad, -⟩
      · exact h
      · rw [hbad] at hok
        cases hok
    refine ⟨?_, ?_⟩
    · rw [flag_h3Datagram.judged_iff hdistinct hok]
      simp [PeerSettings.default]
    · rw [flag_extendedConnect.judged_iff hdistinct hok]
      simp [PeerSettings.default]
  refine ⟨fun payload => ⟨?_, ?_⟩, hflags, fun payload payload' pairs h h' => ?_, ?_⟩
  · rintro ⟨s, hok⟩
    obtain ⟨pairs, hpairs⟩ := pairs_of_run hok
    refine ⟨pairs, hpairs, (hseen pairs).1 ?_⟩
    rcases judged_cases default [] pairs with ⟨h, -⟩ | ⟨-, what, hbad, -⟩
    · exact h
    · rw [parse_pairs hpairs, hbad] at hok
      cases hok
  · rintro ⟨pairs, hpairs, hfine⟩
    rw [parse_pairs hpairs]
    rcases judged_cases default [] pairs with ⟨-, hok⟩ | ⟨hbad, -⟩
    · exact hok
    · exact absurd ((hseen pairs).2 hfine) hbad
  · rw [parse_pairs h, parse_pairs h']
  · intro payload payload' pairs pairs' h h' hperm
    rcases judged_cases default [] pairs with ⟨hdistinct, s, hok⟩ |
      ⟨hbad, what, herror, hfault⟩
    · rcases judged_cases default [] pairs' with ⟨-, s', hok'⟩ | ⟨hbad', -⟩
      · rw [← parse_pairs h] at hok
        rw [← parse_pairs h'] at hok'
        obtain ⟨h3, hext⟩ := hflags payload pairs s h hok
        obtain ⟨h3', hext'⟩ := hflags payload' pairs' s' h' hok'
        rw [← hperm.mem_iff] at h3' hext'
        have hsame : s' = s := by
          obtain ⟨a, b⟩ := s
          obtain ⟨a', b'⟩ := s'
          rw [mk.injEq]
          exact ⟨Bool.eq_iff_iff.2 (h3'.trans h3.symm), Bool.eq_iff_iff.2 (hext'.trans hext.symm)⟩
        exact .inl (by rw [hok', hok, hsame])
      · exact absurd (hdistinct.perm hperm) hbad'
    · rcases judged_cases default [] pairs' with ⟨hdistinct', -⟩ | ⟨-, what', herror', hfault'⟩
      · exact absurd (hdistinct'.perm hperm.symm) hbad
      · exact .inr ⟨what, what', by rw [parse_pairs h, herror], hfault,
          by rw [parse_pairs h', herror'], hfault'⟩

/-- Two pairs of one identifier and a reserved one: the order decides what is said of them. -/
theorem parse_order_matters :
    ¬∀ payload payload' pairs pairs', Pairs payload pairs → Pairs payload' pairs' →
      pairs.Perm pairs' → parse payload' = parse payload := by
  intro hclaim
  have h0 : Varint.Encodes [0] 0 := rfl
  have h2 : Varint.Encodes [2] 2 := rfl
  have h7 : Varint.Encodes [7] 7 := rfl
  have hrepeat : Pairs [7, 0, 7, 0, 2, 0] [(7, 0), (7, 0), (2, 0)] :=
    .cons h7 h0 (.cons h7 h0 (.cons h2 h0 .nil))
  have hreserved : Pairs [2, 0, 7, 0, 7, 0] [(2, 0), (7, 0), (7, 0)] :=
    .cons h2 h0 (.cons h7 h0 (.cons h7 h0 .nil))
  have hsame := hclaim _ _ _ _ hrepeat hreserved (by decide)
  rw [parse_pairs hrepeat, parse_pairs hreserved] at hsame
  exact absurd hsame (by decide)

end Masqr.Transport.Http3
