import Mathlib
import Masqr.Dns.Linear
import Masqr.Dns.Server

/-!
What an installed policy answers: everything, each name by an upstream prepared for it.
-/

namespace Masqr.Dns

open Masqr.Lib

variable {reqwest : Reqwest}

/-- The upstream is of the resolver's kind, and asks at its address. -/
def Upstream.Serves (resolver : Resolver) : Upstream reqwest → Prop
  | .plain address => resolver.kind = .plain ∧ address = resolver.address
  | .doh client => resolver.kind = .doh ∧ client.id = resolver.id ∧
      client.dialled.ip = resolver.address ∧ client.url = resolver.url.getD ""

lemma Upstream.build_serves {resolver : Resolver} {upstream : Upstream reqwest}
    (h : Upstream.build resolver = .ok upstream) : upstream.Serves resolver := by
  unfold Upstream.build at h
  split at h
  · next hkind =>
    cases h
    exact ⟨hkind, rfl⟩
  · next hkind =>
    dsimp only at h
    split at h
    · cases h
    split at h
    · cases h
    split at h
    · cases h
    · cases h
      exact ⟨hkind, rfl, rfl, rfl⟩

/-! ### The upstreams prepared -/

lemma Upstreams.add_ok {u u' : Upstreams reqwest} {resolver : Resolver}
    (h : u.add resolver = .ok u') : ∃ upstream, Upstream.build resolver = .ok upstream ∧
      u' = ⟨u.byId.insert resolver.id upstream⟩ := by
  unfold Upstreams.add at h
  cases hb : (Upstream.build resolver : Except (UpstreamError reqwest) _) with
  | error problem => rw [hb] at h; cases h
  | ok upstream => rw [hb] at h; cases h; exact ⟨upstream, rfl, rfl⟩

/-- Each id that is declared has an upstream built for a resolver declared under it. -/
lemma Upstreams.foldlM_add {declared : List Resolver} {u u' : Upstreams reqwest}
    (h : declared.foldlM Upstreams.add u = .ok u') (id : String) :
    u'.get id = u.get id ∧ (∀ r ∈ declared, r.id ≠ id) ∨
      ∃ r ∈ declared, r.id = id ∧ ∃ upstream, Upstream.build r = .ok upstream ∧
        u'.get id = some upstream := by
  induction declared generalizing u with
  | nil =>
    cases h
    simp
  | cons first declared ih =>
    rw [List.foldlM_cons] at h
    cases hadd : u.add first with
    | error problem => rw [hadd] at h; cases h
    | ok middle =>
      rw [hadd] at h
      rcases ih h with ⟨hget, hnone⟩ | ⟨r, hr, hid, hbuilt⟩
      · obtain ⟨upstream, hbuild, rfl⟩ := Upstreams.add_ok hadd
        change u'.get id = (u.byId.insert first.id upstream)[id]? at hget
        rw [Std.ExtTreeMap.getElem?_insert] at hget
        simp only [Std.LawfulEqCmp.compare_eq_iff_eq] at hget
        by_cases hid : first.id = id
        · rw [if_pos hid] at hget
          exact .inr ⟨first, List.mem_cons_self, hid, upstream, hbuild, hget⟩
        · rw [if_neg hid] at hget
          exact .inl ⟨hget, List.forall_mem_cons.mpr ⟨hid, hnone⟩⟩
      · exact .inr ⟨r, List.mem_cons_of_mem _ hr, hid, hbuilt⟩

/-- What `prepare` accepts: a policy that decides everything, and an upstream for each of its
resolvers. -/
lemma Server.prepare_ok {s : Server reqwest} {walk : Walk (String × Resolver)}
    {input : PolicyInput} {installed : Installed reqwest}
    (h : s.prepare walk input = .ok installed) :
    Policy.build input = .ok installed.policy ∧ installed.policy.decidesEverything ∧
      Upstreams.build ((walk.order installed.policy.resolvers.toList).map Prod.snd) =
        .ok installed.upstreams := by
  unfold Server.prepare at h
  split at h
  · cases h
  next policy hpolicy =>
  split at h
  · cases h
  next hall =>
  dsimp only at h
  split at h
  · cases h
  split at h
  · cases h
  next upstreams hupstreams =>
  cases h
  exact ⟨hpolicy, by simpa using hall, hupstreams⟩

/-- A resolver declared has the upstream that was built for it. -/
lemma Server.prepare_get {s : Server reqwest} {walk : Walk (String × Resolver)}
    {input : PolicyInput} {installed : Installed reqwest}
    (h : s.prepare walk input = .ok installed) {resolver : Resolver}
    (hr : resolver ∈ input.resolvers) :
    ∃ upstream, installed.upstreams.get resolver.id = some upstream ∧ upstream.Serves resolver := by
  obtain ⟨hbuild, -, hupstreams⟩ := Server.prepare_ok h
  have hkeyed : ∀ r : Resolver, r ∈ (walk.order installed.policy.resolvers.toList).map Prod.snd ↔
      installed.policy.resolvers[r.id]? = some r := by
    intro r
    simp only [List.mem_map, Walk.mem, Prod.exists, exists_eq_right,
      Std.ExtTreeMap.mem_toList_iff_getElem?_eq_some]
    constructor
    · rintro ⟨id, hid⟩
      obtain rfl := ((build_resolvers hbuild id r).1 hid).2
      exact hid
    · exact fun hr => ⟨r.id, hr⟩
  have hdeclared := (build_resolvers hbuild _ _).2 ⟨hr, rfl⟩
  rcases Upstreams.foldlM_add hupstreams resolver.id with
    ⟨-, hnone⟩ | ⟨r, hmem, hid, upstream, hb, hget⟩
  · exact absurd rfl (hnone resolver ((hkeyed resolver).2 hdeclared))
  · -- two resolvers of a policy with one id are the same
    have hsame : installed.policy.resolvers[resolver.id]? = some r := hid ▸ (hkeyed r).1 hmem
    obtain rfl : resolver = r := Option.some.inj (hdeclared.symm.trans hsame)
    exact ⟨upstream, hget, Upstream.build_serves hb⟩

/-! ### The catch-all -/

/-- A policy that decides everything has a rule that matches every name and is for everybody. -/
lemma catchAll {input : PolicyInput} {p : Policy} (hb : Policy.build input = .ok p)
    (h : p.decidesEverything) : ∃ rule ∈ input.rules, rule.matcher = .any ∧ rule.programs = [] := by
  obtain ⟨harranged, hrules⟩ := Policy.build_arranged hb
  simp only [Policy.decidesEverything, List.any_eq_true, Option.any_eq_true] at h
  obtain ⟨index, hindex, held, hheld, hprograms⟩ := h
  obtain ⟨any, hany, hmatcher⟩ := (harranged.any index).1 hindex
  obtain rfl : held = any := Option.some.inj (hheld.symm.trans hany)
  rw [hrules, List.getElem?_map] at hheld
  obtain ⟨rule, hrule, rfl⟩ := Option.map_eq_some_iff.1 hheld
  refine ⟨rule, List.mem_of_getElem? hrule, ?_, by simpa [Rule.normalised] using hprograms⟩
  cases hm : rule.matcher <;> simp [Rule.normalised, Match.normalised, hm] at hmatcher ⊢

/-- The catch-all leaves no name and no asker without a decision. -/
lemma decide_catchAll {input : PolicyInput} {p : Policy} (hb : Policy.build input = .ok p)
    (h : p.decidesEverything) (name : String) (asker : Option Asker) :
    ∃ d : Decision, p.decide name asker = .ok (some d) ∧ d.resolver ∈ input.resolvers := by
  obtain ⟨decision, hdecide, hfirst, hwith⟩ := Policy.decide_first hb name asker
  cases decision with
  | some d =>
    obtain ⟨rule, -, -, hresolver⟩ := hwith d rfl
    exact ⟨d, hdecide, ((build_resolvers hb _ _).1 hresolver).1⟩
  | none =>
    obtain ⟨rule, hr, hmatcher, hprograms⟩ := catchAll hb h
    have hpicked := (picks_iff hb hr).2
      ⟨show rule.matcher.Matches name by rw [hmatcher]; trivial,
        (.inl hprograms : rule.IsFor asker)⟩
    have hnone := List.findIdx?_eq_none_iff.1 hfirst.symm rule hr
    rw [hpicked] at hnone
    cases hnone

/-- **An installed policy answers for everything.** Of every name and asker it makes a decision,
for the resolver decided on there is an upstream of its kind and address, and a query is never
failed for want of either. -/
theorem installed_answers {s : Server reqwest} {core : Core} {walk : Walk (String × Resolver)}
    {input : PolicyInput} {report : InstallReport}
    (h : (s.install core walk input).1 = .ok report) :
    ∃ installed, (s.install core walk input).2.1.installed = some installed ∧
      (∀ name asker, ∃ d : Decision, installed.policy.decide name asker = .ok (some d) ∧
        d.resolver ∈ input.resolvers ∧ ∃ upstream,
          installed.upstreams.get d.resolver.id = some upstream ∧ upstream.Serves d.resolver) ∧
      ∀ query asked asker, readQuery query = .ok asked →
        ∃ asking, consult (some installed) query asker = some asking ∧ asking.asked = asked ∧
          installed.policy.decide asked.name asker =
            .ok (some ⟨asking.resolver, asking.route, asking.rule⟩) ∧
          asking.upstream.Serves asking.resolver := by
  unfold Server.install at h ⊢
  cases hp : s.prepare walk input with
  | error problem => simp [hp] at h
  | ok installed =>
    obtain ⟨hbuild, hall, -⟩ := Server.prepare_ok hp
    have hdecides : ∀ name asker, ∃ d : Decision,
        installed.policy.decide name asker = .ok (some d) ∧
        d.resolver ∈ input.resolvers ∧ ∃ upstream,
          installed.upstreams.get d.resolver.id = some upstream ∧ upstream.Serves d.resolver := by
      intro name asker
      obtain ⟨d, hdecide, hdeclared⟩ := decide_catchAll hbuild hall name asker
      exact ⟨d, hdecide, hdeclared, Server.prepare_get hp hdeclared⟩
    refine ⟨installed, rfl, hdecides, fun query asked asker hread => ?_⟩
    obtain ⟨d, hdecide, -, upstream, hget, hserves⟩ := hdecides asked.name asker
    refine ⟨⟨asked, d.route, d.rule, d.resolver, upstream⟩, ?_, rfl, hdecide, hserves⟩
    simp [consult, hread, hdecide, hget]

theorem installed_answers_browser : ∃ installed,
    ((Server.new none : Server noHttps).install (Core.new ⟨fun _ => 0, fun _ => 0⟩ 0) .asHeld
      browserOnly).2.1.installed = some installed ∧
    (∀ name asker, ∃ d : Decision, installed.policy.decide name asker = .ok (some d) ∧
      d.resolver ∈ browserOnly.resolvers ∧ ∃ upstream,
        installed.upstreams.get d.resolver.id = some upstream ∧ upstream.Serves d.resolver) ∧
    ∀ query asked asker, readQuery query = .ok asked →
      ∃ asking, consult (some installed) query asker = some asking ∧ asking.asked = asked ∧
        installed.policy.decide asked.name asker =
          .ok (some ⟨asking.resolver, asking.route, asking.rule⟩) ∧
        asking.upstream.Serves asking.resolver := by
  cases h : ((Server.new none : Server noHttps).install (Core.new ⟨fun _ => 0, fun _ => 0⟩ 0)
      .asHeld browserOnly).1 with
  | ok report => exact installed_answers h
  | error problem =>
    have hok : ((Server.new none : Server noHttps).install (Core.new ⟨fun _ => 0, fun _ => 0⟩ 0)
      .asHeld browserOnly).1.isOk = true := by decide +kernel
    rw [h] at hok
    cases hok

end Masqr.Dns
