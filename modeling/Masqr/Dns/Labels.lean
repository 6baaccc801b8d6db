import Mathlib
import Masqr.Dns.Lookup
import Masqr.Dns.Wire

/-!
Matching by label against matching the dotted text, end to end from the bytes of a query.
-/

namespace Masqr.Dns

open Masqr.Lib

/-! ### Labels -/

/-- Labels without regard to the case of ASCII letters. -/
def folded (labels : List (List Char)) : List (List Char) := labels.map (·.map Char.toLower)

/-- The labels of a name as it came, each byte taken for a character. -/
def wireLabels (labels : List (List UInt8)) : List (List Char) := labels.map (·.map asChar)

/-- The labels a rule's name is written with; dots at its end say nothing. -/
def ruleLabels (name : String) : List (List Char) :=
  (name.toList.rdropWhile (· = '.')).splitOn '.'

/-- Whether a matcher, as the application wrote it, matches the labels of a name. -/
def Match.byLabel (labels : List (List UInt8)) : Match → Prop
  | .exact name => folded (ruleLabels name) = folded (wireLabels labels)
  | .suffix name => folded (ruleLabels name) <:+ folded (wireLabels labels)
  | .any => True

instance (labels : List (List UInt8)) : DecidablePred (Match.byLabel labels) := fun
  | .exact name => inferInstanceAs (Decidable (folded (ruleLabels name) = _))
  | .suffix name => inferInstanceAs (Decidable (folded (ruleLabels name) <:+ _))
  | .any => inferInstanceAs (Decidable True)

/-- The byte of a dot. -/
def DOT : UInt8 := 0x2e

/-- The name spells the text of a matcher only across a dot inside one of its labels: the whole name,
or what is left of it after a dot, but no run of labels at its end without such a dot. -/
def Match.acrossDot (labels : List (List UInt8)) : Match → Prop
  | .exact name => normalise name = dotted labels ∧ ∃ label ∈ labels, DOT ∈ label
  | .suffix name =>
    (normalise name).toList ∈ (dotted labels).toList :: Policy.tails (dotted labels).toList ∧
      ∀ rest, rest <:+ labels → dotted rest = normalise name → ∃ label ∈ rest, DOT ∈ label
  | .any => False

/-! ### Case -/

lemma lower_byte : ∀ n : Fin 256,
    asChar (byteToAsciiLowercase (UInt8.ofNat n.val)) = (asChar (UInt8.ofNat n.val)).toLower := by
  decide +kernel

lemma asChar_lowercase (b : UInt8) : asChar (byteToAsciiLowercase b) = (asChar b).toLower := by
  have h := lower_byte ⟨b.toNat, b.toNat_lt⟩
  simpa using h

lemma folded_wireLabels (labels : List (List UInt8)) :
    folded (wireLabels labels) = labels.map labelText := by
  unfold folded wireLabels labelText
  rw [List.map_map]
  refine List.map_congr_left fun label _ => ?_
  rw [Function.comp_apply, List.map_map]
  exact List.map_congr_left fun b _ => (asChar_lowercase b).symm

lemma toLower_eq_dot (c : Char) : c.toLower = '.' ↔ c = '.' := by
  constructor
  · intro h
    by_contra hne
    rw [Char.toLower] at h
    split at h
    · next hc =>
      have hval := congrArg (fun c : Char => c.val.toNat) h
      have hbounds : ('A'.val).toNat = 65 ∧ ('Z'.val).toNat = 90 ∧ ('a'.val - 'A'.val).toNat = 32 ∧
          ('.'.val).toNat = 46 := by decide
      simp only [ge_iff_le, UInt32.le_iff_toNat_le, UInt32.toNat_add, hbounds] at hc hval
      omega
    · exact hne h
  · rintro rfl
    rfl

lemma splitOn_map_toLower (text : List Char) :
    (text.map Char.toLower).splitOn '.' = folded (text.splitOn '.') := by
  induction text with
  | nil => rfl
  | cons c text ih =>
    rw [List.map_cons, List.splitOn_cons_eq_if_modifyHead, List.splitOn_cons_eq_if_modifyHead, ih]
    by_cases hc : c = '.'
    · simp [folded, hc]
    · have hc' : c.toLower ≠ '.' := fun h => hc ((toLower_eq_dot c).1 h)
      cases hsplit : text.splitOn '.' with
      | nil => exact absurd hsplit (List.splitOn_ne_nil _ _)
      | cons piece pieces => simp [folded, hc, hc']

/-- The text of a rule's name as it is compared is split into its labels as they are compared. -/
lemma splitOn_normalise (name : String) :
    (normalise name).toList.splitOn '.' = folded (ruleLabels name) := by
  rw [normalise, toAsciiLowercase, String.toList_ofList, String.toList_ofList, splitOn_map_toLower]
  rfl

/-! ### Dots -/

lemma dot_byte : ∀ n : Fin 256,
    asChar (byteToAsciiLowercase (UInt8.ofNat n.val)) = '.' ↔ UInt8.ofNat n.val = DOT := by
  decide +kernel

lemma dot_mem_labelText {label : List UInt8} : '.' ∈ labelText label ↔ DOT ∈ label := by
  have hbyte (b : UInt8) : asChar (byteToAsciiLowercase b) = '.' ↔ b = DOT := by
    have h := dot_byte ⟨b.toNat, b.toNat_lt⟩
    simpa using h
  rw [labelText, List.mem_map]
  constructor
  · rintro ⟨b, hb, hdot⟩
    rw [← (hbyte b).1 hdot]
    exact hb
  · intro h
    exact ⟨DOT, h, (hbyte DOT).2 rfl⟩

lemma dot_not_mem_piece {text piece : List Char} (h : piece ∈ text.splitOn '.') : '.' ∉ piece := by
  induction text generalizing piece with
  | nil => simp_all
  | cons c text ih =>
    rw [List.splitOn_cons_eq_if_modifyHead] at h
    by_cases hc : c = '.'
    · rw [if_pos (by simpa using hc), List.mem_cons] at h
      rcases h with rfl | h
      · simp
      · exact ih h
    · rw [if_neg (by simpa using hc)] at h
      cases hsplit : text.splitOn '.' with
      | nil => exact absurd hsplit (List.splitOn_ne_nil _ _)
      | cons first pieces =>
        rw [hsplit, List.modifyHead_cons, List.mem_cons] at h
        rcases h with rfl | h
        · rw [List.mem_cons]
          rintro (hdot | hdot)
          · exact hc hdot.symm
          · exact ih (by rw [hsplit]; exact List.mem_cons_self ..) hdot
        · exact ih (by rw [hsplit]; exact List.mem_cons_of_mem _ h)

/-- Labels joined are labels joined before a dot and labels joined after it. -/
lemma intercalate_append {before rest : List (List Char)} (hb : before ≠ []) (hr : rest ≠ []) :
    List.intercalate ['.'] (before ++ rest) =
      List.intercalate ['.'] before ++ '.' :: List.intercalate ['.'] rest := by
  induction before with
  | nil => exact absurd rfl hb
  | cons label before ih =>
    cases before with
    | nil =>
      rw [List.singleton_append, List.intercalate_cons_of_ne_nil hr, List.intercalate_singleton]
      simp
    | cons next before =>
      rw [List.cons_append, List.cons_append, List.intercalate_cons_cons, List.intercalate_cons_cons,
        ← List.cons_append, ih (by simp)]
      simp

/-! ### Text and labels -/

variable {labels : List (List UInt8)} {name : String}

/-- A text whose labels, as they are compared, are these labels of a name. -/
lemma dotted_eq (h : folded (ruleLabels name) = labels.map labelText) :
    dotted labels = normalise name := by
  rw [dotted, ← h, ← splitOn_normalise, List.intercalate_splitOn, String.ofList_toList]

/-- A name without a dot inside a label is split back into its labels. -/
lemma splitOn_dotted (hne : dotted labels ≠ "") (hdot : ∀ label ∈ labels, DOT ∉ label) :
    (dotted labels).toList.splitOn '.' = labels.map labelText := by
  have hlabels : labels.map labelText ≠ [] := by
    intro hnil
    rw [dotted, hnil] at hne
    exact hne rfl
  rw [dotted, String.toList_ofList]
  refine List.splitOn_intercalate _ (fun piece hpiece => ?_) hlabels
  obtain ⟨label, hlabel, rfl⟩ := List.mem_map.1 hpiece
  rw [dot_mem_labelText]
  exact hdot label hlabel

lemma folded_eq (hne : normalise name ≠ "") (h : dotted labels = normalise name)
    (hdot : ∀ label ∈ labels, DOT ∉ label) : folded (ruleLabels name) = labels.map labelText := by
  rw [← splitOn_normalise, ← h, splitOn_dotted (by rw [h]; exact hne) hdot]

/-- The labels of a rule's name hold no dots. -/
lemma dot_free (h : folded (ruleLabels name) = labels.map labelText) :
    ∀ label ∈ labels, DOT ∉ label := by
  intro label hlabel
  rw [← dot_mem_labelText]
  have hpiece : labelText label ∈ (normalise name).toList.splitOn '.' := by
    rw [splitOn_normalise, h]
    exact List.mem_map_of_mem hlabel
  exact dot_not_mem_piece hpiece

/-- A matcher as `build` accepts it has a name to match. -/
def Match.Named (m : Match) : Prop := m.normalised ≠ .exact "" ∧ m.normalised ≠ .suffix ""

/-- What matches by label matches as text. -/
lemma byText_of_byLabel {m : Match} (hm : m.Named) (h : m.byLabel labels) :
    m.normalised.byText (dotted labels) := by
  cases m with
  | any => trivial
  | exact name =>
    rw [Match.byLabel, folded_wireLabels] at h
    exact (dotted_eq h).symm
  | suffix name =>
    rw [Match.byLabel, folded_wireLabels] at h
    obtain ⟨before, hsplit⟩ := h
    have hname : (normalise name).toList = List.intercalate ['.'] (folded (ruleLabels name)) := by
      rw [← splitOn_normalise, List.intercalate_splitOn]
    have hrest : folded (ruleLabels name) ≠ [] := by
      rw [← splitOn_normalise]
      exact List.splitOn_ne_nil _ _
    rw [Match.normalised, Match.byText, dotted, String.toList_ofList, ← hsplit, List.mem_cons]
    by_cases hb : before = []
    · rw [hb, List.nil_append, ← hname]
      exact .inl rfl
    · right
      rw [intercalate_append hb hrest, ← hname, mem_tails]
      refine ⟨fun hnil => hm.2 ?_, _, rfl⟩
      rw [Match.normalised, String.toList_eq_nil_iff.1 hnil]

/-- What matches the text of a name without a dot inside a label matches by label. -/
lemma byLabel_of_byText {m : Match} (hm : m.Named) (hdot : ∀ label ∈ labels, DOT ∉ label)
    (h : m.normalised.byText (dotted labels)) : m.byLabel labels := by
  cases m with
  | any => trivial
  | exact name =>
    have hne : normalise name ≠ "" := fun h => hm.1 (by rw [Match.normalised, h])
    rw [Match.byLabel, folded_wireLabels]
    exact folded_eq hne h.symm hdot
  | suffix name =>
    have hne : normalise name ≠ "" := fun h => hm.2 (by rw [Match.normalised, h])
    rw [Match.byLabel, folded_wireLabels]
    rw [Match.normalised, Match.byText, List.mem_cons, mem_tails] at h
    rcases h with h | ⟨-, before, h⟩
    · rw [folded_eq hne (String.toList_inj.1 h).symm hdot]
    · have hdotted : dotted labels ≠ "" := by
        intro hempty
        rw [hempty] at h
        simp at h
      rw [← splitOn_dotted hdotted hdot, h, List.splitOn_append_cons_self, splitOn_normalise]
      exact List.suffix_append _ _

/-- **What matches as text but not by label matches across a dot inside a label.** -/
lemma acrossDot_iff {m : Match} (hm : m.Named) :
    m.acrossDot labels ↔ m.normalised.byText (dotted labels) ∧ ¬ m.byLabel labels := by
  cases m with
  | any => simp [Match.acrossDot, Match.byLabel]
  | exact name =>
    have hne : normalise name ≠ "" := fun h => hm.1 (by rw [Match.normalised, h])
    rw [Match.acrossDot, Match.normalised, Match.byText, Match.byLabel, folded_wireLabels]
    refine and_congr_right fun htext => ⟨?_, fun hlabel => ?_⟩
    · rintro ⟨label, hlabel, hdot⟩ heq
      exact dot_free heq label hlabel hdot
    · by_contra hnone
      have hfree : ∀ label ∈ labels, DOT ∉ label := fun label hmem hdot => hnone ⟨label, hmem, hdot⟩
      exact hlabel (folded_eq hne htext.symm hfree)
  | suffix name =>
    have hne : normalise name ≠ "" := fun h => hm.2 (by rw [Match.normalised, h])
    rw [Match.acrossDot, Match.normalised, Match.byText, Match.byLabel, folded_wireLabels]
    refine and_congr_right fun htext => ⟨?_, fun hlabel rest hrest heq => ?_⟩
    · intro hall hsuffix
      obtain ⟨rest, hrest, heq⟩ := List.suffix_map_iff.1 hsuffix
      obtain ⟨label, hmem, hdot⟩ := hall rest hrest (dotted_eq heq)
      exact dot_free heq label hmem hdot
    · by_contra hnone
      have hfree : ∀ label ∈ rest, DOT ∉ label := fun label hmem hdot => hnone ⟨label, hmem, hdot⟩
      refine hlabel ?_
      rw [folded_eq hne heq hfree]
      exact hrest.map _

/-! ### The first rule -/

/-- Of two predicates of which one is within the other, the first elements that satisfy them are the
same exactly when each that satisfies only the wider one comes after one of the narrower. -/
lemma findIdx?_eq_iff {α : Type*} {wide narrow : α → Bool} {as : List α}
    (hle : ∀ a ∈ as, narrow a = true → wide a = true) :
    as.findIdx? wide = as.findIdx? narrow ↔ ∀ (i : ℕ) (a : α), as[i]? = some a → wide a = true →
      narrow a = false → ∃ j < i, ∃ b, as[j]? = some b ∧ narrow b = true := by
  induction as with
  | nil => simp
  | cons a as ih =>
    have ih := ih fun b hb => hle b (List.mem_cons_of_mem _ hb)
    rw [List.findIdx?_cons, List.findIdx?_cons]
    cases hn : narrow a with
    | true =>
      rw [hle a (List.mem_cons_self ..) hn]
      refine iff_of_true rfl fun i b hi hw hb => ?_
      cases i with
      | zero =>
        cases hi
        rw [hn] at hb
        cases hb
      | succ i => exact ⟨0, Nat.succ_pos i, a, rfl, hn⟩
    | false =>
      cases hw : wide a with
      | true =>
        refine iff_of_false ?_ fun hall => ?_
        · cases as.findIdx? narrow <;> simp
        · obtain ⟨j, hj, -⟩ := hall 0 a rfl hw hn
          omega
      | false =>
        have hmap : (as.findIdx? wide).map (· + 1) = (as.findIdx? narrow).map (· + 1) ↔
            as.findIdx? wide = as.findIdx? narrow :=
          (Option.map_injective (add_left_injective 1)).eq_iff
        simp only [Bool.false_eq_true, if_false]
        rw [hmap, ih]
        constructor
        · intro hall i b hi hw' hn'
          cases i with
          | zero =>
            cases hi
            rw [hw] at hw'
            cases hw'
          | succ i =>
            obtain ⟨j, hj, c, hc, hnc⟩ := hall i b hi hw' hn'
            exact ⟨j + 1, Nat.succ_lt_succ hj, c, hc, hnc⟩
        · intro hall i b hi hw' hn'
          obtain ⟨j, hj, c, hc, hnc⟩ := hall (i + 1) b hi hw' hn'
          cases j with
          | zero =>
            cases hc
            rw [hn] at hnc
            cases hnc
          | succ j => exact ⟨j, Nat.lt_of_succ_lt_succ hj, c, hc, hnc⟩

lemma build_named {input : PolicyInput} {p : Policy} (hb : Policy.build input = .ok p) :
    ∀ rule ∈ input.rules, rule.matcher.Named := by
  obtain ⟨harranged, hrules⟩ := Policy.build_arranged hb
  intro rule hr
  refine harranged.named rule.normalised ?_
  rw [hrules]
  exact List.mem_map_of_mem hr

/-- **The rule picked for a query is the first that matches by label** exactly when each rule that
matches only across a dot inside a label comes after one that matches by label. -/
theorem picked_by_label_iff {input : PolicyInput} {p : Policy} (hb : Policy.build input = .ok p)
    {message : Message} (hq : Asks message labels) (asker : Option Asker) :
    ∃ q, readQuery message = .ok q ∧
      ((∃ decision, p.decide q.name asker = .ok decision ∧
        decision.map Decision.rule = firstRule input.rules asker (Match.byLabel labels)) ↔
      ∀ (i : ℕ) (rule : Rule), input.rules[i]? = some rule → rule.Admits asker → rule.matcher.acrossDot labels →
        ∃ j < i, ∃ before : Rule, input.rules[j]? = some before ∧ before.Admits asker ∧
          before.matcher.byLabel labels) := by
  obtain ⟨q, hread, hname⟩ := readQuery_asks hq
  refine ⟨q, hread, ?_⟩
  obtain ⟨decision, hdecide, hfirst, -⟩ := Policy.decide_first hb q.name asker
  have hnamed := build_named hb
  rw [hname] at hdecide hfirst ⊢
  have hpicked : (∃ decision, p.decide (dotted labels) asker = .ok decision ∧
      decision.map Decision.rule = firstRule input.rules asker (Match.byLabel labels)) ↔
      firstRule input.rules asker (fun m => m.normalised.byText (dotted labels)) =
        firstRule input.rules asker (Match.byLabel labels) := by
    rw [← hfirst]
    constructor
    · rintro ⟨decision', hdecide', heq⟩
      rw [hdecide] at hdecide'
      cases hdecide'
      exact heq
    · exact fun heq => ⟨decision, hdecide, heq⟩
  rw [hpicked, firstRule, firstRule, findIdx?_eq_iff]
  · refine forall_congr' fun i => forall_congr' fun rule => forall_congr' fun hr => ?_
    have hacross : rule.matcher.acrossDot labels ↔ _ :=
      acrossDot_iff (hnamed rule (List.mem_of_getElem? hr))
    simp only [Bool.and_eq_true, decide_eq_true_eq, Bool.and_eq_false_iff, decide_eq_false_iff_not,
      hacross, Rule.Admits]
    constructor
    · intro hall hadmits hm
      exact hall ⟨hadmits, hm.1⟩ (.inr hm.2)
    · intro hall hm hnot
      refine hall hm.1 ⟨hm.2, ?_⟩
      rcases hnot with hnot | hnot
      · rw [hm.1] at hnot
        cases hnot
      · exact hnot
  · intro rule hr hm
    rw [Bool.and_eq_true, decide_eq_true_eq] at hm ⊢
    exact ⟨hm.1, byText_of_byLabel (hnamed rule hr) hm.2⟩

/-- A name without a dot inside a label is matched by label. -/
theorem picked_by_label {input : PolicyInput} {p : Policy} (hb : Policy.build input = .ok p)
    {message : Message} (hq : Asks message labels) (hdot : ∀ label ∈ labels, DOT ∉ label)
    (asker : Option Asker) : ∃ q decision, readQuery message = .ok q ∧
      p.decide q.name asker = .ok decision ∧
      decision.map Decision.rule = firstRule input.rules asker (Match.byLabel labels) := by
  obtain ⟨q, hread, hiff⟩ := picked_by_label_iff hb hq asker
  obtain ⟨decision, hdecide, hfirst⟩ := hiff.2 fun i rule hr hadmits hacross => by
    have hnamed := build_named hb rule (List.mem_of_getElem? hr)
    obtain ⟨htext, hlabel⟩ := (acrossDot_iff hnamed).1 hacross
    exact absurd (byLabel_of_byText hnamed hdot htext) hlabel
  exact ⟨q, decision, hread, hdecide, hfirst⟩

/-! ### A dot inside a label -/

/-- Names under `b` are answered at home. -/
def underB : PolicyInput :=
  ⟨[⟨"home", .plain, .v4 0xc0a80101, none, .direct⟩], [⟨.suffix "b", "home", [], false⟩]⟩

lemma underB_built : ∃ p, Policy.build underB = .ok p := by
  cases hb : Policy.build underB with
  | ok p => exact ⟨p, rfl⟩
  | error problem =>
    have hok : (Policy.build underB).isOk = true := by decide +kernel
    rw [hb] at hok
    cases hok

/-- A query for a name of so many bytes of labels. -/
def queryFor (name : List UInt8) : Message :=
  [0, 7, 1, 0, 0, 1, 0, 0, 0, 0, 0, 0] ++ name ++ [0, 1, 0, 1]

/-- The query for the labels `a` and `b`. -/
theorem picked_by_label_iff_plain : ∃ p, Policy.build underB = .ok p ∧
    ∃ q, readQuery (queryFor [1, 97, 1, 98, 0]) = .ok q ∧
      ((∃ decision, p.decide q.name none = .ok decision ∧
        decision.map Decision.rule = firstRule underB.rules none (Match.byLabel [[97], [98]])) ↔
      ∀ (i : ℕ) (rule : Rule), underB.rules[i]? = some rule → rule.Admits none →
        rule.matcher.acrossDot [[97], [98]] →
        ∃ j < i, ∃ before : Rule, underB.rules[j]? = some before ∧ before.Admits none ∧
          before.matcher.byLabel [[97], [98]]) := by
  obtain ⟨p, hp⟩ := underB_built
  have hb : NameAt (queryFor [1, 97, 1, 98, 0]) 14 [[98]] 0 2 17 :=
    @NameAt.label _ 14 0 0 17 [98] [] (by decide) (by decide) (by decide) (.root (by decide))
  have hab : NameAt (queryFor [1, 97, 1, 98, 0]) 12 [[97], [98]] 0 4 17 :=
    @NameAt.label _ 12 0 2 17 [97] [[98]] (by decide) (by decide) (by decide) hb
  refine ⟨p, hp, picked_by_label_iff hp ⟨⟨[0, 7], [1, 0], [0, 0, 0, 0, 0, 0], 1, ?_⟩, 17, 1, 1,
    ⟨0, 4, hab, ?_, ?_⟩, ?_⟩ none⟩
  all_goals decide

/-- **The single label `a.b` is taken for a name under `b`.** -/
theorem dot_inside_label : ∃ p, Policy.build underB = .ok p ∧
    Asks (queryFor [3, 97, 46, 98, 0]) [[97, 46, 98]] ∧
    ∃ q decision, readQuery (queryFor [3, 97, 46, 98, 0]) = .ok q ∧
      p.decide q.name none = .ok decision ∧ decision.map Decision.rule = some 0 ∧
      firstRule underB.rules none (Match.byLabel [[97, 46, 98]]) = none := by
  obtain ⟨p, hp⟩ := underB_built
  have hname : NameAt (queryFor [3, 97, 46, 98, 0]) 12 [[97, 46, 98]] 0 4 17 :=
    @NameAt.label _ 12 0 0 17 [97, 46, 98] [] (by decide) (by decide) (by decide)
      (.root (by decide))
  have hasks : Asks (queryFor [3, 97, 46, 98, 0]) [[97, 46, 98]] := by
    refine ⟨⟨[0, 7], [1, 0], [0, 0, 0, 0, 0, 0], 1, ?_⟩, 17, 1, 1, ⟨0, 4, hname, ?_, ?_⟩, ?_⟩
    all_goals decide
  obtain ⟨q, hread, hq⟩ := readQuery_asks hasks
  obtain ⟨decision, hdecide, hfirst, -⟩ := Policy.decide_first hp q.name none
  refine ⟨p, hp, hasks, q, decision, hread, hdecide, ?_, by decide +kernel⟩
  rw [hfirst, hq]
  decide +kernel

end Masqr.Dns
