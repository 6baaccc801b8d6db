import Mathlib
import Masqr.Dns.Lookup

/-!
The lookup against a plain walk over the rules as the application wrote them.
-/

namespace Masqr.Dns

/-- Whether a matcher, as the application wrote it, matches a name. -/
def Match.Matches (name : String) : Match → Prop
  | .any => True
  | .exact n => normalise n = name
  | .suffix s => name = normalise s ∨ ∃ before, name = before ++ "." ++ normalise s

/-- Whether a rule is for an asker: for everybody where it lists no program, and else for who is
known to run one of those it lists. -/
def Rule.IsFor (rule : Rule) (asker : Option Asker) : Prop :=
  rule.programs = [] ∨ ∃ a, asker = some a ∧ ∃ program ∈ rule.programs,
    normaliseProgram program = a.path ∨ normaliseProgram program = a.name

/-- The rule is the lowest-numbered one that matches the name and is for the asker. -/
structure Decides (input : PolicyInput) (name : String) (asker : Option Asker) (i : ℕ)
    (rule : Rule) : Prop where
  there : input.rules[i]? = some rule
  hits : rule.matcher.Matches name
  isFor : rule.IsFor asker
  first : ∀ j < i, ∀ before : Rule, input.rules[j]? = some before →
    ¬ (before.matcher.Matches name ∧ before.IsFor asker)

lemma admits_iff {rule : Rule} {asker : Option Asker} : rule.Admits asker ↔ rule.IsFor asker := by
  unfold Rule.Admits Policy.appliesTo Rule.IsFor
  cases hp : rule.programs with
  | nil => simp [Rule.normalised, hp]
  | cons program programs =>
    cases asker with
    | none => simp [Rule.normalised, hp]
    | some a => simp [Rule.normalised, hp]

/-- A name's text ends in a dot and `s` exactly when `s` is left after one of its dots. -/
lemma ends_iff {name s : String} (hs : s ≠ "") :
    s.toList ∈ Policy.tails name.toList ↔ ∃ before, name = before ++ "." ++ s := by
  have hne : s.toList ≠ [] := by simpa using hs
  rw [mem_tails]
  constructor
  · rintro ⟨-, before, heq⟩
    refine ⟨String.ofList before, String.toList_inj.1 ?_⟩
    simpa using heq
  · rintro ⟨before, rfl⟩
    exact ⟨hne, before.toList, by simp⟩

lemma byText_iff {m : Match} {name : String} (hm : m.normalised ≠ .suffix "") :
    m.normalised.byText name ↔ m.Matches name := by
  cases m with
  | any => exact Iff.rfl
  | exact n => exact Iff.rfl
  | suffix s =>
    have hs : normalise s ≠ "" := fun h => hm (congrArg Match.suffix h)
    rw [Match.normalised, Match.byText, List.mem_cons, ends_iff hs, String.toList_inj,
      Match.Matches, eq_comm]

/-- Two rules that decide the same are the same. -/
lemma Decides.unique {input : PolicyInput} {name : String} {asker : Option Asker} {i j : ℕ}
    {rule rule' : Rule} (h : Decides input name asker i rule)
    (h' : Decides input name asker j rule') :
    i = j ∧ rule = rule' := by
  have hij : i = j := by
    rcases Nat.lt_trichotomy i j with hlt | rfl | hlt
    · exact absurd ⟨h.hits, h.isFor⟩ (h'.first i hlt rule h.there)
    · rfl
    · exact absurd ⟨h'.hits, h'.isFor⟩ (h.first j hlt rule' h'.there)
  subst hij
  exact ⟨rfl, Option.some.inj (h.there.symm.trans h'.there)⟩

/-! ### The resolvers -/

lemma addResolver_spec {resolvers resolvers' : Std.ExtTreeMap String Resolver} {resolver : Resolver}
    (h : Policy.addResolver resolvers resolver = .ok resolvers') :
    resolver.id ∉ resolvers ∧ resolvers' = resolvers.insert resolver.id resolver := by
  unfold Policy.addResolver at h
  split_ifs at h with hurl hheld
  cases h
  exact ⟨hheld, rfl⟩

/-- The resolvers of a policy are those declared, each under its id. -/
lemma foldlM_addResolver {declared : List Resolver}
    {resolvers resolvers' : Std.ExtTreeMap String Resolver}
    (h : declared.foldlM Policy.addResolver resolvers = .ok resolvers') (id : String)
    (r : Resolver) :
    resolvers'[id]? = some r ↔ resolvers[id]? = some r ∨ r ∈ declared ∧ r.id = id := by
  induction declared generalizing resolvers with
  | nil =>
    cases h
    simp
  | cons first declared ih =>
    rw [List.foldlM_cons] at h
    cases hadd : Policy.addResolver resolvers first with
    | error problem =>
      rw [hadd] at h
      cases h
    | ok middle =>
      rw [hadd] at h
      obtain ⟨hnew, rfl⟩ := addResolver_spec hadd
      rw [ih h, Std.ExtTreeMap.getElem?_insert, List.mem_cons]
      simp only [Std.LawfulEqCmp.compare_eq_iff_eq]
      by_cases hid : first.id = id
      · subst hid
        have hnone : resolvers[first.id]? = none := by
          rw [← Option.not_isSome_iff_eq_none, ← Std.ExtTreeMap.mem_iff_isSome_getElem?]
          exact hnew
        rw [if_pos rfl, hnone]
        constructor
        · rintro (heq | ⟨hmem, hr⟩)
          · cases heq
            exact .inr ⟨.inl rfl, rfl⟩
          · exact .inr ⟨.inr hmem, hr⟩
        · rintro (heq | ⟨rfl | hmem, hr⟩)
          · cases heq
          · exact .inl rfl
          · exact .inr ⟨hmem, hr⟩
      · rw [if_neg hid]
        constructor
        · rintro (heq | ⟨hmem, hr⟩)
          · exact .inl heq
          · exact .inr ⟨.inr hmem, hr⟩
        · rintro (heq | ⟨rfl | hmem, hr⟩)
          · exact .inl heq
          · exact absurd hr hid
          · exact .inr ⟨hmem, hr⟩

lemma build_resolvers {input : PolicyInput} {p : Policy} (hb : Policy.build input = .ok p)
    (id : String) (r : Resolver) : p.resolvers[id]? = some r ↔ r ∈ input.resolvers ∧ r.id = id := by
  unfold Policy.build at hb
  split at hb
  · cases hb
  · next resolvers hr =>
    have hempty : Policy.Arranged ⟨resolvers, [], ∅, ∅, []⟩ := by
      refine ⟨fun n i => ?_, fun n i => ?_, fun i => ?_, nofun, nofun⟩ <;> simp
    obtain ⟨-, -, hsame⟩ := Policy.foldlM_addRule hempty hb
    rw [hsame, foldlM_addResolver hr]
    simp

/-! ### The walk -/

/-- What the lookup looks for in a rule is what the walk does. -/
lemma picks_iff {input : PolicyInput} {p : Policy} (hb : Policy.build input = .ok p) {name : String}
    {asker : Option Asker} {rule : Rule} (hr : rule ∈ input.rules) :
    (Policy.appliesTo rule.normalised.programs asker &&
      decide (rule.matcher.normalised.byText name)) = true ↔
    rule.matcher.Matches name ∧ rule.IsFor asker := by
  obtain ⟨harranged, hrules⟩ := Policy.build_arranged hb
  have hmem : rule.normalised ∈ p.rules := by
    rw [hrules]
    exact List.mem_map_of_mem hr
  rw [Bool.and_eq_true, decide_eq_true_eq, byText_iff (harranged.named _ hmem).2, ← admits_iff,
    and_comm]
  exact Iff.rfl

/-- The first rule by the text of the name is the one that decides. -/
lemma firstRule_eq_some_iff {input : PolicyInput} {p : Policy} (hb : Policy.build input = .ok p)
    {name : String} {asker : Option Asker} {i : ℕ} :
    firstRule input.rules asker (fun m => m.normalised.byText name) = some i ↔
      ∃ rule, Decides input name asker i rule := by
  rw [firstRule, List.findIdx?_eq_some_iff_getElem]
  constructor
  · rintro ⟨hlt, hi, hbefore⟩
    obtain ⟨hhits, hfor⟩ := (picks_iff hb (List.getElem_mem hlt)).1 hi
    refine ⟨input.rules[i], List.getElem?_eq_getElem hlt, hhits, hfor, fun j hj before hr => ?_⟩
    obtain ⟨hlt', rfl⟩ := List.getElem?_eq_some_iff.1 hr
    rw [← picks_iff hb (List.getElem_mem hlt')]
    exact hbefore j hj
  · rintro ⟨rule, hthere, hhits, hfor, hfirst⟩
    obtain ⟨hlt, rfl⟩ := List.getElem?_eq_some_iff.1 hthere
    refine ⟨hlt, (picks_iff hb (List.getElem_mem hlt)).2 ⟨hhits, hfor⟩, fun j hj => ?_⟩
    rw [picks_iff hb (List.getElem_mem _)]
    exact hfirst j hj _ (List.getElem?_eq_getElem _)

/-- **The lookup decides as a plain walk over the rules does**: by the lowest-numbered rule that
matches the name and is for the asker, with the resolver the application declared for it; and not
at all exactly when there is no such rule. -/
theorem decide_linear {input : PolicyInput} {p : Policy} (hb : Policy.build input = .ok p)
    (name : String) (asker : Option Asker) :
    (∃ decision, p.decide name asker = .ok decision) ∧
    (∀ d : Decision, p.decide name asker = .ok (some d) ↔
      ∃ rule, Decides input name asker d.rule rule ∧ d.route = rule.route ∧
        d.resolver ∈ input.resolvers ∧ d.resolver.id = rule.resolver) ∧
    (p.decide name asker = .ok none ↔
      ∀ rule ∈ input.rules, ¬ (rule.matcher.Matches name ∧ rule.IsFor asker)) := by
  obtain ⟨decision, hdecide, hfirst, hwith⟩ := Policy.decide_first hb name asker
  have hrule (i : ℕ) : decision.map Decision.rule = some i ↔
      ∃ rule, Decides input name asker i rule := by
    rw [hfirst]
    exact firstRule_eq_some_iff hb
  have hsome (d : Decision) (hd : decision = some d) :
      ∃ rule, Decides input name asker d.rule rule ∧ d.route = rule.route ∧
        d.resolver ∈ input.resolvers ∧ d.resolver.id = rule.resolver := by
    obtain ⟨rule, hrd⟩ := (hrule d.rule).1 (by rw [hd]; rfl)
    obtain ⟨rule', hthere, hroute, hresolver⟩ := hwith d hd
    obtain rfl : rule = rule' := Option.some.inj (hrd.there.symm.trans hthere)
    obtain ⟨hdeclared, hid⟩ := (build_resolvers hb _ _).1 hresolver
    exact ⟨rule, hrd, hroute, hdeclared, hid⟩
  refine ⟨⟨decision, hdecide⟩, fun d => ?_, ?_⟩
  · rw [hdecide, Except.ok.injEq]
    refine ⟨hsome d, ?_⟩
    rintro ⟨rule, hrd, hroute, hdeclared, hid⟩
    obtain ⟨d', hd', hi⟩ := Option.map_eq_some_iff.1 ((hrule d.rule).2 ⟨rule, hrd⟩)
    obtain ⟨rule', hrd', hroute', hdeclared', hid'⟩ := hsome d' hd'
    obtain ⟨-, rfl⟩ := hrd'.unique hrd
    have hresolver : d'.resolver = d.resolver := Option.some.inj <|
      ((build_resolvers hb _ _).2 ⟨hdeclared', hid'⟩).symm.trans
        ((build_resolvers hb _ _).2 ⟨hdeclared, hid⟩)
    rw [hd']
    obtain ⟨resolver', route', i'⟩ := d'
    obtain ⟨resolver, route, i⟩ := d
    simp only at hi hresolver hroute hroute'
    rw [hi, hresolver, hroute, hroute']
  · rw [hdecide, Except.ok.injEq]
    constructor
    · rintro rfl rule hr hboth
      have hnone : firstRule input.rules asker (fun m => m.normalised.byText name) = none :=
        hfirst.symm
      have hfalse := List.findIdx?_eq_none_iff.1 hnone rule hr
      rw [(picks_iff hb hr).2 hboth] at hfalse
      cases hfalse
    · intro hall
      cases hd : decision with
      | none => rfl
      | some d =>
        obtain ⟨rule, hrd, -⟩ := hsome d hd
        exact absurd ⟨hrd.hits, hrd.isFor⟩ (hall rule (List.mem_of_getElem? hrd.there))

/-- The browser's names under `example.com` go through the tunnel, everything else stays at home. -/
def browserOnly : PolicyInput :=
  ⟨[⟨"home", .plain, .v4 0xc0a80101, none, .direct⟩,
      ⟨"warp", .plain, .v4 0x01010101, none, .tunnel⟩],
    [⟨.suffix "Example.com.", "warp", ["Browser.EXE"], true⟩,
      ⟨.exact "www.example.com", "home", [], false⟩, ⟨.any, "home", [], false⟩]⟩

theorem decide_linear_browser : ∃ p, Policy.build browserOnly = .ok p ∧
    (∃ decision, p.decide "www.example.com" none = .ok decision) ∧
    (∀ d : Decision, p.decide "www.example.com" none = .ok (some d) ↔
      ∃ rule, Decides browserOnly "www.example.com" none d.rule rule ∧ d.route = rule.route ∧
        d.resolver ∈ browserOnly.resolvers ∧ d.resolver.id = rule.resolver) ∧
    (p.decide "www.example.com" none = .ok none ↔
      ∀ rule ∈ browserOnly.rules,
        ¬ (rule.matcher.Matches "www.example.com" ∧ rule.IsFor none)) := by
  cases hb : Policy.build browserOnly with
  | ok p => exact ⟨p, rfl, decide_linear hb "www.example.com" none⟩
  | error problem =>
    have hok : (Policy.build browserOnly).isOk = true := by decide +kernel
    rw [hb] at hok
    cases hok

end Masqr.Dns
