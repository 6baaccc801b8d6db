import Mathlib.Data.Finset.Card
import Mathlib.Data.List.Induction
import Mathlib.Tactic.TypeStar

/-!
A table of a bounded number of keys, each with a rank, that makes room by dropping a key of
least rank.

Keys are put into it one after another. All of them are in it at the end exactly when some
one of them comes last of what is new, and the others outlast the keys that have to go.
-/

namespace Masqr.Lib

/-- The keys of a table, and the rank of each. -/
structure Ranked (α : Type*) where
  keys : Finset α
  rank : α → ℕ

variable {α : Type*} [DecidableEq α]

namespace Ranked

/-- What putting a key of some rank leaves: a key held takes the greater rank, and room for a
new one is made of a key of least rank that may be dropped. -/
structure Put (bound : ℕ) (drops : Ranked α → α → Prop) (t : Ranked α) (p : α × ℕ)
    (t' : Ranked α) : Prop where
  self : t'.rank p.1 = if p.1 ∈ t.keys then max (t.rank p.1) p.2 else p.2
  rest : ∀ k ∈ t'.keys, k ≠ p.1 → t'.rank k = t.rank k
  keys : (p.1 ∈ t.keys ∧ t'.keys = t.keys) ∨
    (p.1 ∉ t.keys ∧ t.keys.card < bound ∧ t'.keys = insert p.1 t.keys) ∨
    p.1 ∉ t.keys ∧ bound ≤ t.keys.card ∧ ∃ v ∈ t.keys, (∀ k ∈ t.keys, t.rank v ≤ t.rank k) ∧
      drops t v ∧ t'.keys = insert p.1 (t.keys.erase v)

/-- Some keys put one after another. -/
def Puts (bound : ℕ) (drops : Ranked α → α → Prop) (s : Ranked α) : List (α × ℕ) → Ranked α → Prop
  | [], t => t = s
  | p :: ps, t => ∃ u, Put bound drops s p u ∧ Puts bound drops u ps t

/-- The keys that are put. -/
def named (ps : List (α × ℕ)) : Finset α := (ps.map Prod.fst).toFinset

/-- The rank a key has of the table or has been given since, where it was never dropped. -/
def given (s : Ranked α) (ps : List (α × ℕ)) (k : α) : ℕ :=
  ps.foldl (fun r p => if p.1 = k then max r p.2 else r) (if k ∈ s.keys then s.rank k else 0)

/-- The keys of the table that are not put. -/
def others (s : Ranked α) (ps : List (α × ℕ)) : Finset α := s.keys \ named ps

/-- How many keys have to go. -/
def excess (bound : ℕ) (s : Ranked α) (ps : List (α × ℕ)) : ℕ := (s.keys ∪ named ps).card - bound

/-- As many of the others as have to go rank below the key, by what it has been given. -/
def Outlasts (bound : ℕ) (s : Ranked α) (ps taken : List (α × ℕ)) (k : α) : Prop :=
  excess bound s ps ≤ ((others s ps).filter fun o => s.rank o < given s taken k).card

/-- None have to go, or some key comes last: every other is in the table or has been put by
then, and outlasts as many as have to go. -/
def Lasting (bound : ℕ) (s : Ranked α) (ps : List (α × ℕ)) : Prop :=
  excess bound s ps = 0 ∨ ∃ taken p rest, ps = taken ++ p :: rest ∧ ∀ k ∈ named ps, k ≠ p.1 →
    k ∈ s.keys ∪ named taken ∧ Outlasts bound s ps taken k

variable {bound : ℕ} {drops : Ranked α → α → Prop} {s t t' : Ranked α} {p : α × ℕ}
  {ps qs : List (α × ℕ)} {k : α}

@[simp] lemma named_nil : named ([] : List (α × ℕ)) = ∅ := rfl

@[simp] lemma mem_named_snoc : k ∈ named (ps ++ [p]) ↔ k ∈ named ps ∨ k = p.1 := by
  simp [named, or_comm]

lemma named_append : named (ps ++ qs) = named ps ∪ named qs := by
  simp [named]

lemma given_snoc : given s (ps ++ [p]) k =
    if p.1 = k then max (given s ps k) p.2 else given s ps k := by
  simp [given, List.foldl_append]

/-! ### One key -/

lemma Put.mem (h : Put bound drops t p t') : p.1 ∈ t'.keys := by
  rcases h.keys with ⟨ha, hkeys⟩ | ⟨-, -, hkeys⟩ | ⟨-, -, v, -, -, -, hkeys⟩
  · rw [hkeys]
    exact ha
  · rw [hkeys]
    exact Finset.mem_insert_self _ _
  · rw [hkeys]
    exact Finset.mem_insert_self _ _

lemma Put.of_ne (h : Put bound drops t p t') (hk : k ∈ t'.keys) (hne : k ≠ p.1) :
    k ∈ t.keys := by
  rcases h.keys with ⟨-, hkeys⟩ | ⟨-, -, hkeys⟩ | ⟨-, -, v, -, -, -, hkeys⟩
  · rwa [hkeys] at hk
  · rw [hkeys] at hk
    exact Finset.mem_of_mem_insert_of_ne hk hne
  · rw [hkeys] at hk
    exact Finset.mem_of_mem_erase (Finset.mem_of_mem_insert_of_ne hk hne)

/-- A key goes only as one of least rank, to make room in a full table for a new one. -/
lemma Put.dropped (h : Put bound drops t p t') (hk : k ∈ t.keys) (hgone : k ∉ t'.keys) :
    p.1 ∉ t.keys ∧ bound ≤ t.keys.card ∧ (∀ j ∈ t.keys, t.rank k ≤ t.rank j) ∧ drops t k := by
  rcases h.keys with ⟨-, hkeys⟩ | ⟨-, -, hkeys⟩ | ⟨hnew, hfull, v, -, hleast, hdrops, hkeys⟩
  · rw [hkeys] at hgone
    exact absurd hk hgone
  · rw [hkeys] at hgone
    exact absurd (Finset.mem_insert_of_mem hk) hgone
  · obtain rfl : k = v := by
      by_contra hne
      rw [hkeys] at hgone
      exact hgone (Finset.mem_insert_of_mem (Finset.mem_erase.mpr ⟨hne, hk⟩))
    exact ⟨hnew, hfull, hleast, hdrops⟩

lemma Put.card (h : Put bound drops t p t') (ht : t.keys.card ≤ bound) :
    t'.keys.card ≤ bound ∧ (t'.keys.card = bound ∨ t'.keys = insert p.1 t.keys) := by
  rcases h.keys with ⟨ha, hkeys⟩ | ⟨ha, hroom, hkeys⟩ | ⟨ha, hfull, v, hv, -, -, hkeys⟩
  · rw [hkeys, Finset.insert_eq_of_mem ha]
    exact ⟨ht, .inr rfl⟩
  · rw [hkeys, Finset.card_insert_of_notMem ha]
    exact ⟨hroom, .inr rfl⟩
  · have hcard : t'.keys.card = t.keys.card := by
      rw [hkeys, Finset.card_insert_of_notMem fun h => ha (Finset.mem_of_mem_erase h),
        Finset.card_erase_add_one hv]
    rw [hcard]
    exact ⟨ht, .inl (le_antisymm ht hfull)⟩

/-! ### All that was put so far -/

/-- What is so of the table after keys were put: it holds nothing else, is full or has lost
nothing, ranks no key above what it was given and the others as they were, and those of them
that went rank no higher than those that stayed. -/
structure Told (bound : ℕ) (s : Ranked α) (ps : List (α × ℕ)) (t : Ranked α) : Prop where
  subset : t.keys ⊆ s.keys ∪ named ps
  card : t.keys.card ≤ bound
  full : t.keys.card = bound ∨ t.keys = s.keys ∪ named ps
  rank_le : ∀ k ∈ t.keys, t.rank k ≤ given s ps k
  rank_other : ∀ o ∈ s.keys, o ∉ named ps → o ∈ t.keys → t.rank o = s.rank o
  gone_le : ∀ o ∈ s.keys, o ∉ named ps → o ∉ t.keys → ∀ k ∈ t.keys, k ∉ named ps →
    s.rank o ≤ s.rank k

lemma Told.nil (hs : s.keys.card ≤ bound) : Told bound s [] s where
  subset := by simp
  card := hs
  full := by simp
  rank_le k hk := by simp [given, hk]
  rank_other o _ _ _ := rfl
  gone_le o ho _ hgone := absurd ho hgone

lemma Told.snoc (h : Told bound s ps t) (hput : Put bound drops t p t') :
    Told bound s (ps ++ [p]) t' := by
  have hunnamed : ∀ k, k ∉ named (ps ++ [p]) → k ∉ named ps ∧ k ≠ p.1 := by
    intro k hk
    rw [mem_named_snoc, not_or] at hk
    exact hk
  have hrank : ∀ k ∈ t'.keys, k ∉ named (ps ++ [p]) → k ∈ s.keys ∧ t.rank k = s.rank k := by
    intro k hk hkn
    obtain ⟨hkn, hne⟩ := hunnamed k hkn
    have hkt := hput.of_ne hk hne
    rcases Finset.mem_union.mp (h.subset hkt) with hks | hkn'
    · exact ⟨hks, h.rank_other k hks hkn hkt⟩
    · exact absurd hkn' hkn
  refine ⟨fun k hk => ?_, (hput.card h.card).1, ?_, fun k hk => ?_, fun o ho hon hk => ?_,
    fun o ho hon hgone k hk hkn => ?_⟩
  · rw [Finset.mem_union, mem_named_snoc]
    by_cases hne : k = p.1
    · exact .inr (.inr hne)
    · rcases Finset.mem_union.mp (h.subset (hput.of_ne hk hne)) with hks | hkn
      · exact .inl hks
      · exact .inr (.inl hkn)
  · rcases (hput.card h.card).2 with hfull | hkeys
    · exact .inl hfull
    · rcases h.full with hfull | hall
      · refine .inl (le_antisymm (hput.card h.card).1 ?_)
        rw [hkeys, ← hfull]
        exact Finset.card_le_card (Finset.subset_insert _ _)
      · refine .inr ?_
        rw [hkeys, hall, named_append]
        ext k
        simp [named]
  · by_cases hne : k = p.1
    · subst hne
      rw [hput.self, given_snoc, if_pos rfl]
      split
      · next ha => exact max_le_max (h.rank_le _ ha) le_rfl
      · exact le_max_right _ _
    · rw [hput.rest k hk hne, given_snoc, if_neg (Ne.symm hne)]
      exact h.rank_le k (hput.of_ne hk hne)
  · rw [hput.rest o hk (hunnamed o hon).2]
    exact (hrank o hk hon).2
  · obtain ⟨hks, hrk⟩ := hrank k hk hkn
    have hkt := hput.of_ne hk (hunnamed k hkn).2
    by_cases hot : o ∈ t.keys
    · calc s.rank o = t.rank o := (h.rank_other o ho (hunnamed o hon).1 hot).symm
        _ ≤ t.rank k := (hput.dropped hot hgone).2.2.1 k hkt
        _ = s.rank k := hrk
    · exact h.gone_le o ho (hunnamed o hon).1 hot k hkt (hunnamed k hkn).1

lemma puts_append :
    Puts bound drops s (ps ++ qs) t ↔ ∃ u, Puts bound drops s ps u ∧ Puts bound drops u qs t := by
  induction ps generalizing s with
  | nil => simp [Puts]
  | cons p ps ih =>
    simp only [List.cons_append, Puts, ih]
    constructor
    · rintro ⟨u, hput, v, h, h'⟩
      exact ⟨v, ⟨u, hput, h⟩, h'⟩
    · rintro ⟨v, ⟨u, hput, h⟩, h'⟩
      exact ⟨u, hput, v, h, h'⟩

lemma puts_snoc : Puts bound drops s (ps ++ [p]) t ↔
    ∃ u, Puts bound drops s ps u ∧ Put bound drops u p t := by
  simp [puts_append, Puts]

lemma Puts.told (h : Puts bound drops s ps t) (hs : s.keys.card ≤ bound) : Told bound s ps t := by
  induction ps using List.reverseRecOn generalizing t with
  | nil =>
    obtain rfl : t = s := h
    exact Told.nil hs
  | append_singleton ps p ih =>
    obtain ⟨u, h, hput⟩ := puts_snoc.mp h
    exact (ih h).snoc hput

/-- Where every key put is in the table, putting it takes none out. -/
lemma Puts.keeps (h : Puts bound drops s ps t) (hin : named ps ⊆ s.keys) : t.keys = s.keys := by
  induction ps using List.reverseRecOn generalizing t with
  | nil => exact congrArg keys h
  | append_singleton ps p ih =>
    obtain ⟨u, h, hput⟩ := puts_snoc.mp h
    have hu := ih h fun k hk => hin (mem_named_snoc.mpr (.inl hk))
    have hp : p.1 ∈ u.keys := hu ▸ hin (mem_named_snoc.mpr (.inr rfl))
    rcases hput.keys with ⟨-, hkeys⟩ | ⟨hnew, -⟩ | ⟨hnew, -⟩
    · rw [hkeys, hu]
    · exact absurd hp hnew
    · exact absurd hp hnew

/-- A run that comes to a condition comes to it in one step. -/
lemma Puts.crossing {Q : Ranked α → Prop} (h : Puts bound drops s ps t) (hs : ¬ Q s) (ht : Q t) :
    ∃ taken p rest u u', ps = taken ++ p :: rest ∧ Puts bound drops s taken u ∧
      Put bound drops u p u' ∧ ¬ Q u ∧ Q u' := by
  induction ps generalizing s with
  | nil =>
    obtain rfl : t = s := h
    exact absurd ht hs
  | cons p ps ih =>
    obtain ⟨u, hput, h⟩ := h
    by_cases hu : Q u
    · exact ⟨[], p, ps, s, u, rfl, rfl, hput, hs, hu⟩
    · obtain ⟨taken, q, rest, v, v', rfl, htaken, hput', hv, hv'⟩ := ih h hu
      exact ⟨p :: taken, q, rest, v, v', rfl, ⟨u, hput, htaken⟩, hput', hv, hv'⟩

/-! ### What has to go, and what has gone -/

lemma mem_others {o : α} : o ∈ others s ps ↔ o ∈ s.keys ∧ o ∉ named ps := Finset.mem_sdiff

/-- When all that is put is in the table, what has gone is not put. -/
lemma gone_of_all (hall : named ps ⊆ t.keys) :
    (s.keys ∪ named ps) \ t.keys = others s ps \ t.keys := by
  ext k
  simp only [Finset.mem_sdiff, Finset.mem_union, mem_others]
  constructor
  · rintro ⟨hk | hk, hgone⟩
    · exact ⟨⟨hk, fun hn => hgone (hall hn)⟩, hgone⟩
    · exact absurd (hall hk) hgone
  · rintro ⟨⟨hk, -⟩, hgone⟩
    exact ⟨.inl hk, hgone⟩

lemma Told.mono (h : Told bound s ps t) (hsub : named ps ⊆ named qs) :
    t.keys ⊆ s.keys ∪ named qs :=
  h.subset.trans (Finset.union_subset_union_right hsub)

/-- From a full table as many keys are missing as have to go. -/
lemma Told.missing (h : Told bound s ps t) (hsub : named ps ⊆ named qs)
    (hfull : t.keys.card = bound) :
    ((s.keys ∪ named qs) \ t.keys).card = excess bound s qs := by
  rw [Finset.card_sdiff_of_subset (h.mono hsub), hfull, excess]

/-- Once as many of the others have gone as have to go, all that is put is in the table. -/
lemma Told.all_of_gone (h : Told bound s ps t) (hsub : named ps ⊆ named qs)
    (hexcess : excess bound s qs ≠ 0)
    (hgone : excess bound s qs ≤ (others s qs \ t.keys).card) : named qs ⊆ t.keys := by
  obtain ⟨o, ho⟩ : (others s qs \ t.keys).Nonempty := Finset.card_pos.mp (by omega)
  obtain ⟨ho, hout⟩ := Finset.mem_sdiff.mp ho
  have hfull : t.keys.card = bound := by
    rcases h.full with hfull | hkeys
    · exact hfull
    · refine absurd ?_ hout
      rw [hkeys]
      exact Finset.mem_union_left _ (mem_others.mp ho).1
  have hsame : others s qs \ t.keys = (s.keys ∪ named qs) \ t.keys := by
    refine Finset.eq_of_subset_of_card_le (fun k hk => ?_) ?_
    · obtain ⟨hk, hk'⟩ := Finset.mem_sdiff.mp hk
      exact Finset.mem_sdiff.mpr ⟨Finset.mem_union_left _ (mem_others.mp hk).1, hk'⟩
    · rw [h.missing hsub hfull]
      exact hgone
  intro k hk
  by_contra hout
  have hmem : k ∈ (s.keys ∪ named qs) \ t.keys :=
    Finset.mem_sdiff.mpr ⟨Finset.mem_union_right _ hk, hout⟩
  rw [← hsame] at hmem
  exact (mem_others.mp (Finset.mem_sdiff.mp hmem).1).2 hk

/-- What has gone of the others stays away. -/
lemma Put.gone_subset (h : Put bound drops t p t') (hp : p.1 ∈ named qs) :
    others s qs \ t.keys ⊆ others s qs \ t'.keys := by
  intro k hk
  obtain ⟨hk, hout⟩ := Finset.mem_sdiff.mp hk
  refine Finset.mem_sdiff.mpr ⟨hk, fun hin => hout (h.of_ne hin ?_)⟩
  rintro rfl
  exact (mem_others.mp hk).2 hp

/-! ### Keys that outlast what has to go -/

lemma given_pos (h : 0 < given s ps k) : k ∈ s.keys ∪ named ps := by
  induction ps using List.reverseRecOn with
  | nil =>
    by_contra hk
    simp only [named_nil, Finset.union_empty] at hk
    simp [given, hk] at h
  | append_singleton ps p ih =>
    rw [given_snoc] at h
    rw [Finset.mem_union, mem_named_snoc]
    split at h
    · next hp => exact .inr (.inr hp.symm)
    · rcases Finset.mem_union.mp (ih h) with hk | hk
      · exact .inl hk
      · exact .inr (.inl hk)

/-- Of the others that a key outlasts, one is there while fewer have gone than have to. -/
lemma Outlasts.lower (h : Outlasts bound s qs ps k) (htold : Told bound s ps t)
    (hsub : named ps ⊆ named qs) (hfew : (others s qs \ t.keys).card < excess bound s qs) :
    ∃ o ∈ t.keys, t.rank o < given s ps k := by
  obtain ⟨o, ho, hin⟩ := Finset.exists_mem_notMem_of_card_lt_card (hfew.trans_le h)
  obtain ⟨ho, hlt⟩ := Finset.mem_filter.mp ho
  have hot : o ∈ t.keys := by
    by_contra hout
    exact hin (Finset.mem_sdiff.mpr ⟨ho, hout⟩)
  obtain ⟨hos, hon⟩ := mem_others.mp ho
  exact ⟨o, hot, by rwa [htold.rank_other o hos (fun h => hon (hsub h)) hot]⟩

/-- A key that outlasts what has to go, by the rank it has, is not the one dropped. -/
lemma Outlasts.stays (h : Outlasts bound s qs ps k) (htold : Told bound s ps t)
    (hsub : named ps ⊆ named qs) (hfew : (others s qs \ t.keys).card < excess bound s qs)
    (hk : k ∈ t.keys) (hrank : given s ps k ≤ t.rank k) (hput : Put bound drops t p t') :
    k ∈ t'.keys := by
  by_contra hgone
  obtain ⟨o, ho, hlt⟩ := h.lower htold hsub hfew
  have hleast := (hput.dropped hk hgone).2.2.1 o ho
  omega

/-- While fewer of the others have gone than have to, every key that outlasts them is in the
table, and ranks no lower than it was given. -/
lemma Puts.outlasting (h : Puts bound drops s ps t) (hs : s.keys.card ≤ bound)
    (hsub : named ps ⊆ named qs) (hfew : (others s qs \ t.keys).card < excess bound s qs)
    (hk : k ∈ s.keys ∪ named ps) (hlast : Outlasts bound s qs ps k) :
    k ∈ t.keys ∧ given s ps k ≤ t.rank k := by
  induction ps using List.reverseRecOn generalizing t k with
  | nil =>
    obtain rfl : t = s := h
    simp only [named_nil, Finset.union_empty] at hk
    exact ⟨hk, by simp [given, hk]⟩
  | append_singleton ps p ih =>
    obtain ⟨u, h, hput⟩ := puts_snoc.mp h
    have hsub' : named ps ⊆ named qs := fun j hj => hsub (mem_named_snoc.mpr (.inl hj))
    have hp : p.1 ∈ named qs := hsub (mem_named_snoc.mpr (.inr rfl))
    have hfew' : (others s qs \ u.keys).card < excess bound s qs :=
      (Finset.card_le_card (hput.gone_subset hp)).trans_lt hfew
    have ih := fun {k} => ih (k := k) h hsub' hfew'
    by_cases hne : p.1 = k
    · subst hne
      refine ⟨hput.mem, ?_⟩
      have hgiven : given s (ps ++ [p]) p.1 = max (given s ps p.1) p.2 := by
        rw [given_snoc, if_pos rfl]
      rw [hput.self, hgiven]
      rcases Nat.lt_or_ge p.2 (given s ps p.1) with hlt | hge
      · -- the rank it was given before is the greater, and it has kept it
        have hsame : given s (ps ++ [p]) p.1 = given s ps p.1 := by
          rw [hgiven, max_eq_left hlt.le]
        rw [Outlasts, hsame] at hlast
        obtain ⟨hin, hrank⟩ := ih (given_pos ((Nat.zero_le _).trans_lt hlt)) hlast
        rw [if_pos hin]
        exact max_le_max hrank le_rfl
      · rw [max_eq_right hge]
        split
        · exact le_max_right _ _
        · exact le_rfl
    · have hsame : given s (ps ++ [p]) k = given s ps k := by rw [given_snoc, if_neg hne]
      have hk' : k ∈ s.keys ∪ named ps := by
        rw [Finset.mem_union, mem_named_snoc] at hk
        rcases hk with hk | hk | hk
        · exact Finset.mem_union_left _ hk
        · exact Finset.mem_union_right _ hk
        · exact absurd hk.symm hne
      rw [Outlasts, hsame] at hlast
      obtain ⟨hin, hrank⟩ := ih hk' hlast
      have hstays := Outlasts.stays hlast (h.told hs) hsub' hfew' hin hrank hput
      rw [hsame, hput.rest k hstays (Ne.symm hne)]
      exact ⟨hstays, hrank⟩

/-! ### All of them -/

/-- Where none have to go, none go. -/
lemma Told.all_of_fits (h : Told bound s ps t) (hnone : excess bound s ps = 0) :
    named ps ⊆ t.keys := by
  have hkeys : t.keys = s.keys ∪ named ps := by
    rcases h.full with hfull | hkeys
    · refine Finset.eq_of_subset_of_card_le h.subset ?_
      rw [hfull]
      exact Nat.sub_eq_zero_iff_le.mp hnone
    · exact hkeys
  rw [hkeys]
  exact Finset.subset_union_right

/-- **Where the keys put are lasting, all of them are in the table at the end**, whichever of
equal rank are dropped. -/
theorem Puts.all (h : Puts bound drops s ps t) (hs : s.keys.card ≤ bound)
    (hlast : Lasting bound s ps) : named ps ⊆ t.keys := by
  by_cases hnone : excess bound s ps = 0
  · exact (h.told hs).all_of_fits hnone
  obtain ⟨taken, p, rest, hps, hlast⟩ := hlast.resolve_left hnone
  rw [hps] at h
  obtain ⟨u, htaken, hrest⟩ := puts_append.mp h
  have hsub : named taken ⊆ named ps := by
    rw [hps, named_append]
    exact Finset.subset_union_left
  have hsub' : named (p :: rest) ⊆ named ps := by
    rw [hps, named_append]
    exact Finset.subset_union_right
  have htold := htaken.told hs
  by_cases hfew : (others s ps \ u.keys).card < excess bound s ps
  · -- the key that comes last makes room by what still has to go
    obtain ⟨u', hput, hrest⟩ := hrest
    have hall : named ps ⊆ u'.keys := by
      intro k hk
      by_cases hne : k = p.1
      · exact hne ▸ hput.mem
      · obtain ⟨hk', hlast⟩ := hlast k hk hne
        obtain ⟨hin, hrank⟩ := htaken.outlasting hs hsub hfew hk' hlast
        exact hlast.stays htold hsub hfew hin hrank hput
    have hsub'' : named rest ⊆ u'.keys := by
      intro k hk
      refine hall (hsub' ?_)
      simp only [named, List.map_cons, List.toFinset_cons]
      exact Finset.mem_insert_of_mem hk
    rw [hrest.keeps hsub'']
    exact hall
  · have hall := htold.all_of_gone hsub hnone (Nat.not_lt.mp hfew)
    rw [hrest.keeps (hsub'.trans hall)]
    exact hall

/-- A key outside `wanted` is dropped only when all in it rank higher. -/
def Spares (wanted : Finset α) (t : Ranked α) (v : α) : Prop :=
  v ∉ wanted → ∀ k ∈ wanted, k ∈ t.keys → t.rank v < t.rank k

/-- **Where all the keys put are in the table at the end, though of equal rank those are
spared, they are lasting.** -/
theorem Puts.lasting (h : Puts bound (Spares (named ps)) s ps t) (hs : s.keys.card ≤ bound)
    (hall : named ps ⊆ t.keys) : Lasting bound s ps := by
  by_cases hnone : excess bound s ps = 0
  · exact .inl hnone
  have hstart : ¬ named ps ⊆ s.keys := by
    intro hin
    refine hnone (Nat.sub_eq_zero_of_le ?_)
    rwa [Finset.union_eq_left.mpr hin]
  obtain ⟨taken, p, rest, u, u', hps, htaken, hput, hbefore, hall'⟩ :=
    h.crossing (Q := fun t => named ps ⊆ t.keys) hstart hall
  have hsub : named taken ⊆ named ps := by
    rw [hps, named_append]
    exact Finset.subset_union_left
  have hsub' : named (taken ++ [p]) ⊆ named ps := by
    intro k hk
    rcases mem_named_snoc.mp hk with hk | rfl
    · exact hsub hk
    · simp [hps, named]
  have htold := htaken.told hs
  have htold' := htold.snoc hput
  rcases hput.keys with ⟨-, hkeys⟩ | ⟨hnew, hroom, hkeys⟩ | ⟨hnew, -, v, hv, -, hspare, hkeys⟩
  · exact absurd (hkeys ▸ hall') hbefore
  · -- nothing has gone yet, and so nothing has to
    refine absurd (Nat.sub_eq_zero_of_le ?_) hnone
    refine le_trans (Finset.card_le_card (Finset.union_subset (fun k hk => ?_) hall')) htold'.card
    rcases htold.full with hfull | hnothing
    · exact absurd hfull hroom.ne
    · rw [hkeys, hnothing]
      exact Finset.mem_insert_of_mem (Finset.mem_union_left _ hk)
  · have hvout : v ∉ u'.keys := by
      rw [hkeys, Finset.mem_insert, not_or]
      exact ⟨fun h => hnew (h ▸ hv), Finset.notMem_erase _ _⟩
    have hvn : v ∉ named ps := fun h => hvout (hall' h)
    have hvs : v ∈ s.keys := by
      rcases Finset.mem_union.mp (htold.mono hsub hv) with h | h
      · exact h
      · exact absurd h hvn
    have hrank := htold.rank_other v hvs (fun h => hvn (hsub h)) hv
    have hfull : u'.keys.card = bound := by
      rcases (hput.card htold.card).2 with hfull | hkeys'
      · exact hfull
      · exact absurd (hkeys' ▸ Finset.mem_insert_of_mem hv) hvout
    refine .inr ⟨taken, p, rest, hps, fun k hk hne => ?_⟩
    have hk' : k ∈ u.keys := hput.of_ne (hall' hk) hne
    refine ⟨htold.subset hk', ?_⟩
    rw [Outlasts, ← htold'.missing hsub' hfull, gone_of_all hall']
    refine Finset.card_le_card fun o ho => ?_
    obtain ⟨ho, hout⟩ := Finset.mem_sdiff.mp ho
    obtain ⟨hos, hon⟩ := mem_others.mp ho
    have hle : s.rank o ≤ s.rank v := by
      by_cases hou : o ∈ u.keys
      · have hov : o = v := by
          by_contra hne
          rw [hkeys] at hout
          exact hout (Finset.mem_insert_of_mem (Finset.mem_erase.mpr ⟨hne, hou⟩))
        rw [hov]
      · exact htold.gone_le o hos (fun h => hon (hsub h)) hou v hv fun h => hvn (hsub h)
    refine Finset.mem_filter.mpr ⟨ho, ?_⟩
    calc s.rank o ≤ s.rank v := hle
      _ = u.rank v := hrank.symm
      _ < u.rank k := hspare hvn k hk hk'
      _ ≤ given s taken k := htold.rank_le k hk'

end Ranked

end Masqr.Lib
