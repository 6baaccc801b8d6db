import Mathlib
import Masqr.Dns.Policy

/-!
The arrangement of a policy is an optimisation and never a change of meaning: the lookup finds the
rule that walking the list in order would have found.
-/

namespace Masqr.Dns

/-- Whether a matcher, as a policy holds it, matches the text of a name. -/
def Match.byText (name : String) : Match → Prop
  | .exact n => n = name
  | .suffix n => n.toList ∈ name.toList :: Policy.tails name.toList
  | .any => True

instance (name : String) : DecidablePred (Match.byText name) := fun
  | .exact n => inferInstanceAs (Decidable (n = name))
  | .suffix n => inferInstanceAs (Decidable (n.toList ∈ name.toList :: Policy.tails name.toList))
  | .any => inferInstanceAs (Decidable True)

/-- The first rule, in the order given, that admits the asker and matches. -/
def firstRule (rules : List Rule) (asker : Option Asker) (matching : Match → Prop)
    [DecidablePred matching] : Option ℕ :=
  rules.findIdx? fun rule =>
    Policy.appliesTo rule.normalised.programs asker && decide (matching rule.matcher)

/-- The rule admits the asker. -/
def Rule.Admits (rule : Rule) (asker : Option Asker) : Prop :=
  Policy.appliesTo rule.normalised.programs asker = true

/-- What is left after a dot. -/
lemma mem_tails {text rest : List Char} :
    rest ∈ Policy.tails text ↔ rest ≠ [] ∧ ∃ before, text = before ++ '.' :: rest := by
  induction text with
  | nil => simp [Policy.tails]
  | cons c text ih =>
    have hsplit : (∃ before, c :: text = before ++ '.' :: rest) ↔
        c = '.' ∧ text = rest ∨ ∃ before, text = before ++ '.' :: rest := by
      constructor
      · rintro ⟨_ | ⟨d, before⟩, heq⟩
        · cases heq
          exact .inl ⟨rfl, rfl⟩
        · cases heq
          exact .inr ⟨before, rfl⟩
      · rintro (⟨rfl, rfl⟩ | ⟨before, rfl⟩)
        · exact ⟨[], rfl⟩
        · exact ⟨c :: before, rfl⟩
    rw [hsplit, Policy.tails]
    split_ifs with hc
    · obtain ⟨rfl, hne⟩ := hc
      rw [List.mem_cons, ih]
      constructor
      · rintro (rfl | ⟨h, h'⟩)
        · exact ⟨hne, .inl ⟨rfl, rfl⟩⟩
        · exact ⟨h, .inr h'⟩
      · rintro ⟨h, ⟨-, rfl⟩ | h'⟩
        · exact .inl rfl
        · exact .inr ⟨h, h'⟩
    · rw [ih]
      constructor
      · rintro ⟨h, h'⟩
        exact ⟨h, .inr h'⟩
      · rintro ⟨h, ⟨hdot, rfl⟩ | h'⟩
        · exact absurd ⟨hdot, h⟩ hc
        · exact ⟨h, h'⟩

namespace Policy

/-! ### What `build` arranges -/

/-- The lookups hold the rules, each under its name, and every rule has its resolver. -/
structure Arranged (p : Policy) : Prop where
  exact : ∀ name i, i ∈ (p.exact[name]?).getD [] ↔
    ∃ rule : Rule, p.rules[i]? = some rule ∧ rule.matcher = .exact name
  suffix : ∀ name i, i ∈ (p.suffix[name]?).getD [] ↔
    ∃ rule : Rule, p.rules[i]? = some rule ∧ rule.matcher = .suffix name
  any : ∀ i, i ∈ p.any ↔ ∃ rule : Rule, p.rules[i]? = some rule ∧ rule.matcher = .any
  resolvers : ∀ rule ∈ p.rules, rule.resolver ∈ p.resolvers
  named : ∀ rule ∈ p.rules, rule.matcher ≠ .exact "" ∧ rule.matcher ≠ .suffix ""

lemma mem_append {rules : Indexed} {name n : String} {index i : ℕ} :
    i ∈ ((append rules name index)[n]?).getD [] ↔
      i ∈ (rules[n]?).getD [] ∨ name = n ∧ i = index := by
  rw [append, Std.ExtTreeMap.getElem?_insert]
  simp only [Std.LawfulEqCmp.compare_eq_iff_eq]
  by_cases hn : name = n
  · subst hn
    simp
  · simp [hn]

/-- A rule found among the rules and one more. -/
lemma getElem?_snoc {rules : List Rule} {rule : Rule} {i : ℕ} {P : Rule → Prop} :
    (∃ r, (rules ++ [rule])[i]? = some r ∧ P r) ↔
      (∃ r, rules[i]? = some r ∧ P r) ∨ i = rules.length ∧ P rule := by
  rcases Nat.lt_trichotomy i rules.length with h | rfl | h
  · rw [List.getElem?_append_left h]
    constructor
    · exact .inl
    · rintro (h' | ⟨rfl, -⟩)
      · exact h'
      · omega
  · simp
  · have hnone : rules[i]? = none := List.getElem?_eq_none (by omega)
    have hnone' : (rules ++ [rule])[i]? = none := List.getElem?_eq_none (by simp; omega)
    rw [hnone, hnone']
    constructor
    · rintro ⟨r, hr, -⟩
      cases hr
    · rintro (⟨r, hr, -⟩ | ⟨hi, -⟩)
      · cases hr
      · omega

/-- What `addRule` adds. -/
lemma addRule_spec {p p' : Policy} {rule : Rule} (h : addRule p rule = .ok p') :
    rule.resolver ∈ p.resolvers ∧ p'.resolvers = p.resolvers ∧
    p'.rules = p.rules ++ [rule.normalised] ∧
    ((∃ name, name ≠ "" ∧ rule.normalised.matcher = .exact name ∧
      p'.exact = append p.exact name p.rules.length ∧ p'.suffix = p.suffix ∧ p'.any = p.any) ∨
    (∃ name, name ≠ "" ∧ rule.normalised.matcher = .suffix name ∧
      p'.suffix = append p.suffix name p.rules.length ∧ p'.exact = p.exact ∧ p'.any = p.any) ∨
    (rule.normalised.matcher = .any ∧ p'.any = p.any ++ [p.rules.length] ∧ p'.exact = p.exact ∧
      p'.suffix = p.suffix)) := by
  unfold addRule at h
  dsimp only at h
  split_ifs at h with hresolver
  refine ⟨by simpa using hresolver, ?_⟩
  split at h
  · next name hm =>
    split_ifs at h with hempty
    cases h
    exact ⟨rfl, rfl, .inl ⟨name, hempty, hm, rfl, rfl, rfl⟩⟩
  · next name hm =>
    split_ifs at h with hempty
    cases h
    exact ⟨rfl, rfl, .inr (.inl ⟨name, hempty, hm, rfl, rfl, rfl⟩)⟩
  · next hm =>
    cases h
    exact ⟨rfl, rfl, .inr (.inr ⟨hm, rfl, rfl, rfl⟩)⟩

lemma addRule_arranged {p p' : Policy} {rule : Rule} (hp : Arranged p)
    (h : addRule p rule = .ok p') : Arranged p' := by
  obtain ⟨hresolver, hresolvers, hrules, hcases⟩ := addRule_spec h
  have hresolvers' : ∀ r ∈ p'.rules, r.resolver ∈ p'.resolvers := by
    intro r hr
    rw [hrules, List.mem_append, List.mem_singleton] at hr
    rw [hresolvers]
    rcases hr with hr | rfl
    · exact hp.resolvers r hr
    · exact hresolver
  have hnamed (hm : rule.normalised.matcher ≠ .exact "" ∧ rule.normalised.matcher ≠ .suffix "") :
      ∀ r ∈ p'.rules, r.matcher ≠ .exact "" ∧ r.matcher ≠ .suffix "" := by
    intro r hr
    rw [hrules, List.mem_append, List.mem_singleton] at hr
    rcases hr with hr | rfl
    · exact hp.named r hr
    · exact hm
  rcases hcases with ⟨name, hname, hm, he, hs, ha⟩ | ⟨name, hname, hm, hs, he, ha⟩ | ⟨hm, ha, he, hs⟩
  · refine ⟨fun n i => ?_, fun n i => ?_, fun i => ?_, hresolvers', hnamed ?_⟩
    · rw [he, mem_append, hp.exact, hrules, getElem?_snoc, hm]
      simp [and_comm]
    · rw [hs, hp.suffix, hrules, getElem?_snoc, hm]
      simp
    · rw [ha, hp.any, hrules, getElem?_snoc, hm]
      simp
    · simp [hm, hname]
  · refine ⟨fun n i => ?_, fun n i => ?_, fun i => ?_, hresolvers', hnamed ?_⟩
    · rw [he, hp.exact, hrules, getElem?_snoc, hm]
      simp
    · rw [hs, mem_append, hp.suffix, hrules, getElem?_snoc, hm]
      simp [and_comm]
    · rw [ha, hp.any, hrules, getElem?_snoc, hm]
      simp
    · simp [hm, hname]
  · refine ⟨fun n i => ?_, fun n i => ?_, fun i => ?_, hresolvers', hnamed ?_⟩
    · rw [he, hp.exact, hrules, getElem?_snoc, hm]
      simp
    · rw [hs, hp.suffix, hrules, getElem?_snoc, hm]
      simp
    · rw [ha, List.mem_append, List.mem_singleton, hp.any, hrules, getElem?_snoc, hm]
      simp
    · simp [hm]

lemma foldlM_addRule {p p' : Policy} {rules : List Rule} (hp : Arranged p)
    (h : rules.foldlM addRule p = .ok p') :
    Arranged p' ∧ p'.rules = p.rules ++ rules.map Rule.normalised ∧ p'.resolvers = p.resolvers := by
  induction rules generalizing p with
  | nil =>
    cases h
    exact ⟨hp, by simp, rfl⟩
  | cons rule rules ih =>
    rw [List.foldlM_cons] at h
    cases hadd : addRule p rule with
    | error problem =>
      rw [hadd] at h
      cases h
    | ok q =>
      rw [hadd] at h
      obtain ⟨-, hresolvers, hrules, -⟩ := addRule_spec hadd
      obtain ⟨hq, hrules', hresolvers'⟩ := ih (addRule_arranged hp hadd) h
      refine ⟨hq, ?_, hresolvers'.trans hresolvers⟩
      rw [hrules', hrules, List.append_assoc]
      rfl

/-- **What `build` accepts it arranges**, the rules in the order the application wrote them. -/
theorem build_arranged {input : PolicyInput} {p : Policy} (h : build input = .ok p) :
    Arranged p ∧ p.rules = input.rules.map Rule.normalised := by
  unfold build at h
  split at h
  · cases h
  · next resolvers hr =>
    have hempty : Arranged ⟨resolvers, [], ∅, ∅, []⟩ := by
      refine ⟨fun n i => ?_, fun n i => ?_, fun i => ?_, nofun, nofun⟩ <;> simp
    obtain ⟨harranged, hrules, -⟩ := foldlM_addRule hempty h
    exact ⟨harranged, by simpa using hrules⟩

/-! ### What the lookup finds -/

variable {p : Policy}

/-- The candidates for a name are the rules that match its text. -/
lemma mem_candidates (hp : Arranged p) {name : String} {i : ℕ} :
    i ∈ p.candidates name ↔ ∃ rule : Rule, p.rules[i]? = some rule ∧ rule.matcher.byText name := by
  unfold candidates
  rw [List.mem_insertionSort, List.mem_append, List.mem_append, hp.exact, hp.any,
    List.mem_flatMap]
  constructor
  · rintro ((⟨rule, hr, hm⟩ | ⟨rest, hrest, hi⟩) | ⟨rule, hr, hm⟩)
    · exact ⟨rule, hr, by rw [hm]; rfl⟩
    · obtain ⟨rule, hr, hm⟩ := (hp.suffix _ _).1 hi
      refine ⟨rule, hr, ?_⟩
      rw [hm, Match.byText, String.toList_ofList]
      exact hrest
    · exact ⟨rule, hr, by rw [hm]; trivial⟩
  · rintro ⟨rule, hr, hm⟩
    cases hmatch : rule.matcher with
    | exact n =>
      rw [hmatch] at hm
      exact .inl (.inl ⟨rule, hr, by rw [hmatch]; exact congrArg _ hm⟩)
    | suffix n =>
      rw [hmatch] at hm
      refine .inl (.inr ⟨n.toList, hm, (hp.suffix _ _).2 ⟨rule, hr, ?_⟩⟩)
      rw [hmatch, String.ofList_toList]
    | any => exact .inr ⟨rule, hr, hmatch⟩

/-- The first of an ordered list of numbers with a property is the least of them. -/
lemma find?_ordered {candidates : List ℕ} {P : ℕ → Bool} (hsorted : candidates.Pairwise (· ≤ ·))
    {least : ℕ} (hmem : least ∈ candidates) (hleast : P least = true)
    (hbefore : ∀ i ∈ candidates, P i = true → least ≤ i) : candidates.find? P = some least := by
  cases hfind : candidates.find? P with
  | none =>
    rw [List.find?_eq_none] at hfind
    exact absurd hleast (hfind least hmem)
  | some found =>
    obtain ⟨hfound, before, after, rfl, hfailed⟩ := List.find?_eq_some_iff_append.1 hfind
    have hle : least ≤ found := hbefore found (by simp) hfound
    rw [List.mem_append, List.mem_cons] at hmem
    rcases hmem with hmem | rfl | hmem
    · have hfalse := hfailed least hmem
      rw [hleast] at hfalse
      cases hfalse
    · rfl
    · rw [List.pairwise_append, List.pairwise_cons] at hsorted
      have hge : found ≤ least := hsorted.2.1.1 least hmem
      rw [Nat.le_antisymm hle hge]

/-- Whether the rule at an index admits the asker. -/
def admits (p : Policy) (asker : Option Asker) (index : ℕ) : Bool :=
  (p.rules[index]?).any fun rule => appliesTo rule.programs asker

/-- The lowest-numbered candidate that admits the asker. -/
lemma find?_candidates {input : PolicyInput} (hb : build input = .ok p) (name : String)
    (asker : Option Asker) : (p.candidates name).find? (p.admits asker) =
      firstRule input.rules asker fun m => m.normalised.byText name := by
  obtain ⟨harranged, hrules⟩ := build_arranged hb
  have hindex (i : ℕ) : p.rules[i]? = (input.rules[i]?).map Rule.normalised := by
    rw [hrules, List.getElem?_map]
  have hwanted {i : ℕ} : (i ∈ p.candidates name ∧ p.admits asker i = true) ↔
      ∃ rule : Rule, input.rules[i]? = some rule ∧
        (appliesTo rule.normalised.programs asker &&
          Decidable.decide (rule.matcher.normalised.byText name)) = true := by
    rw [mem_candidates harranged, admits, hindex]
    cases input.rules[i]? with
    | none => simp
    | some rule => simp [and_comm, Rule.normalised]
  have hsorted : (p.candidates name).Pairwise (· ≤ ·) := List.pairwise_insertionSort _ _
  unfold firstRule
  cases hfirst : input.rules.findIdx? fun rule =>
      appliesTo rule.normalised.programs asker &&
        Decidable.decide (rule.matcher.normalised.byText name) with
  | none =>
    rw [List.findIdx?_eq_none_iff] at hfirst
    rw [List.find?_eq_none]
    intro i hi hadmits
    obtain ⟨rule, hr, hm⟩ := hwanted.1 ⟨hi, hadmits⟩
    rw [hfirst rule (List.mem_of_getElem? hr)] at hm
    cases hm
  | some i =>
    obtain ⟨hlt, hi, hbefore⟩ := List.findIdx?_eq_some_iff_getElem.1 hfirst
    obtain ⟨hmem, hadmits⟩ := hwanted.2 ⟨_, List.getElem?_eq_getElem hlt, hi⟩
    refine find?_ordered hsorted hmem hadmits fun j hj hadmits' => ?_
    obtain ⟨rule, hr, hm⟩ := hwanted.1 ⟨hj, hadmits'⟩
    by_contra hlt'
    obtain ⟨hj', rfl⟩ := List.getElem?_eq_some_iff.1 hr
    exact hbefore j (Nat.lt_of_not_le hlt') hm

/-- **The rule that decides a name is the first one, in the order the application wrote them, that
admits the asker and matches the text**; the resolver and the routing are the rule's, and the
lookup never meets a resolver that is not declared. -/
theorem decide_first {input : PolicyInput} (hb : build input = .ok p) (name : String)
    (asker : Option Asker) : ∃ decision, p.decide name asker = .ok decision ∧
      decision.map Decision.rule =
        firstRule input.rules asker (fun m => m.normalised.byText name) ∧
      ∀ d, decision = some d → ∃ rule, input.rules[d.rule]? = some rule ∧ d.route = rule.route ∧
        p.resolvers[rule.resolver]? = some d.resolver := by
  have hfind : ((p.candidates name).find? fun index =>
      (p.rules[index]?).any fun rule => appliesTo rule.programs asker) = _ :=
    find?_candidates hb name asker
  obtain ⟨harranged, hrules⟩ := build_arranged hb
  simp only [decide, hfind]
  cases hfirst : firstRule input.rules asker fun m => m.normalised.byText name with
  | none => exact ⟨none, rfl, rfl, nofun⟩
  | some index =>
    obtain ⟨hlt, -, -⟩ := List.findIdx?_eq_some_iff_getElem.1 hfirst
    have hrule : p.rules[index]? = some (input.rules[index]).normalised := by
      rw [hrules, List.getElem?_map, List.getElem?_eq_getElem hlt]
      rfl
    have hdeclared := harranged.resolvers _ (List.mem_of_getElem? hrule)
    rw [Std.ExtTreeMap.mem_iff_isSome_getElem?, Option.isSome_iff_exists] at hdeclared
    obtain ⟨resolver, hresolver⟩ := hdeclared
    refine ⟨some ⟨resolver, (input.rules[index]).route, index⟩, ?_, rfl, ?_⟩
    · have hresolver' : p.resolvers[(input.rules[index]).normalised.resolver]? = some resolver :=
        hresolver
      simp only [hrule, Option.bind_some, hresolver', Option.map_some]
      rfl
    · rintro d ⟨⟩
      exact ⟨_, List.getElem?_eq_getElem hlt, rfl, hresolver⟩

end Policy

end Masqr.Dns
