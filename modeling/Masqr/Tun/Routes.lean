import Mathlib
import Masqr.Net

/-!
The prefixes routed into the tunnel, and the bookkeeping that makes them those wanted.
-/

namespace Masqr.Tun

/-- One prefix routed into the tunnel: an address, and the length of the prefix. -/
abbrev Prefix := IpAddr × UInt8

def Prefix.place (p : Prefix) : ℕ := p.1.place * 256 + p.2.toNat

lemma Prefix.place_injective : Function.Injective Prefix.place := by
  intro p q h
  have hp := p.2.toNat_lt
  have hq := q.2.toNat_lt
  simp only [Prefix.place] at h
  exact Prod.ext (IpAddr.place_injective (by omega)) (UInt8.toNat_inj.mp (by omega))

/-- By address, and by length where the addresses are the same. -/
def Prefix.cmp : Prefix → Prefix → Ordering := compareOn Prefix.place

instance : Std.TransCmp Prefix.cmp := inferInstanceAs (Std.TransCmp (compareOn Prefix.place))

instance : Std.LawfulEqCmp Prefix.cmp where
  eq_of_compare h := Prefix.place_injective (Std.LawfulEqOrd.eq_of_compare h)

abbrev Prefixes := Std.ExtTreeSet Prefix Prefix.cmp

/-- A prefix as it is written: `address`, or `address/length`. -/
def parsePrefix (written : String) : Except String Prefix :=
  let chars := written.toList
  let address := String.ofList (chars.takeWhile (· ≠ '/'))
  match Parser.parse address with
  | none => .error s!"`{written}` is not an address"
  | some address =>
    let whole : UInt8 := if address.isIpv4 then 32 else 128
    match chars.dropWhile (· ≠ '/') with
    | [] => .ok (address, whole)
    | _ :: length =>
      match Parser.parseU8 (String.ofList length) with
      | none => .error s!"`{written}` has no prefix length after the slash"
      | some length =>
        if whole < length then
          .error s!"`{written}` is longer than its address family allows"
        else .ok (address, length)

def Prefix.text (p : Prefix) : String := p.1.text ++ "/" ++ toString p.2.toNat

/-! ### The routing table -/

/-- Why a row of the routing table could not be made to say what was asked. -/
inductive TunError
  | route (p : Prefix) (status : ℕ)
  | routeRemoval (p : Prefix) (status : ℕ)
  deriving DecidableEq

def TunError.text : TunError → String
  | .route p status => s!"routing {p.text} into the tunnel failed with error {status}"
  | .routeRemoval p status => s!"removing the route for {p.text} failed with error {status}"

/-- A table whose rows may be refused. -/
structure RouteTable where
  add : Prefix → Except TunError Unit
  remove : Prefix → Except TunError Unit

def NO_ERROR : ℕ := 0
def ERROR_NOT_FOUND : ℕ := 1168
def ERROR_OBJECT_ALREADY_EXISTS : ℕ := 5010

/-- The status the system answers where a row is created, and where it is deleted. -/
structure Adapter where
  createIpForwardEntry : Prefix → ℕ
  deleteIpForwardEntry : Prefix → ℕ

/-- A row that is already there is the state asked for. -/
def Adapter.addRoute (a : Adapter) (p : Prefix) : Except TunError Unit :=
  let status := a.createIpForwardEntry p
  if status ≠ NO_ERROR ∧ status ≠ ERROR_OBJECT_ALREADY_EXISTS then .error (.route p status)
  else .ok ()

/-- A row that is already gone is the state asked for. -/
def Adapter.removeRoute (a : Adapter) (p : Prefix) : Except TunError Unit :=
  let status := a.deleteIpForwardEntry p
  if status ≠ NO_ERROR ∧ status ≠ ERROR_NOT_FOUND then .error (.routeRemoval p status) else .ok ()

def Adapter.table (a : Adapter) : RouteTable := ⟨a.addRoute, a.removeRoute⟩

structure Change where
  added : List Prefix
  removed : List Prefix
  deriving DecidableEq

/-- The prefixes currently routed into the tunnel. -/
structure Routes where
  installed : Prefixes

/-- Where `apply` is: the set so far, what has moved, and the first refusal. -/
structure Applying where
  installed : Prefixes
  change : Change
  refused : Option TunError

namespace Applying

def remove (table : RouteTable) (s : Applying) (p : Prefix) : Applying :=
  match table.remove p with
  | .ok () => { s with
      installed := s.installed.erase p
      change := { s.change with removed := s.change.removed ++ [p] } }
  | .error problem => { s with refused := s.refused.or (some problem) }

def add (table : RouteTable) (s : Applying) (p : Prefix) : Applying :=
  match table.add p with
  | .ok () => { s with
      installed := s.installed.insert p
      change := { s.change with added := s.change.added ++ [p] } }
  | .error problem => { s with refused := s.refused.or (some problem) }

end Applying

/-- Those of one set that are not in another, in order. -/
def difference (a b : Prefixes) : List Prefix := a.toList.filter fun p => decide (p ∉ b)

/-- Every row attempted, the removals first. -/
def Routes.applying (table : RouteTable) (r : Routes) (wanted : Prefixes) : Applying :=
  let going := difference r.installed wanted
  let s := going.foldl (Applying.remove table) ⟨r.installed, ⟨[], []⟩, none⟩
  let coming := difference wanted s.installed
  coming.foldl (Applying.add table) s

/-- Make the installed set match `wanted`, and say what moved, or the first row refused. -/
def Routes.apply (table : RouteTable) (r : Routes) (wanted : Prefixes) :
    Except TunError Change × Routes :=
  let s := r.applying table wanted
  match s.refused with
  | some problem => (.error problem, ⟨s.installed⟩)
  | none => (.ok s.change, ⟨s.installed⟩)

/-! ### What `apply` moves -/

variable {table : RouteTable} {r : Routes} {wanted : Prefixes} {q : Prefix}

lemma mem_difference {a b : Prefixes} : q ∈ difference a b ↔ q ∈ a ∧ q ∉ b := by
  simp [difference, Std.ExtTreeSet.mem_toList]

namespace Applying

variable {s : Applying}

lemma remove_ok {p : Prefix} (h : table.remove p = .ok ()) : s.remove table p =
    { s with installed := s.installed.erase p
             change := { s.change with removed := s.change.removed ++ [p] } } := by
  unfold remove
  rw [h]

lemma remove_error {p : Prefix} {problem : TunError} (h : table.remove p = .error problem) :
    s.remove table p = { s with refused := s.refused.or (some problem) } := by
  unfold remove
  rw [h]

lemma add_ok {p : Prefix} (h : table.add p = .ok ()) : s.add table p =
    { s with installed := s.installed.insert p
             change := { s.change with added := s.change.added ++ [p] } } := by
  unfold add
  rw [h]

lemma add_error {p : Prefix} {problem : TunError} (h : table.add p = .error problem) :
    s.add table p = { s with refused := s.refused.or (some problem) } := by
  unfold add
  rw [h]

lemma mem_removed {ps : List Prefix} : q ∈ (ps.foldl (remove table) s).installed ↔
    q ∈ s.installed ∧ (q ∈ ps → table.remove q ≠ .ok ()) := by
  induction ps generalizing s with
  | nil => simp
  | cons p ps ih =>
    rw [List.foldl_cons, ih]
    cases h : table.remove p with
    | ok =>
      rw [remove_ok h, Std.ExtTreeSet.mem_erase, ne_eq, Std.LawfulEqCmp.compare_eq_iff_eq,
        List.mem_cons]
      by_cases hpq : p = q
      · subst hpq; simp [h]
      · simp [hpq, Ne.symm hpq]
    | error problem =>
      rw [remove_error h, List.mem_cons]
      by_cases hpq : p = q
      · subst hpq; simp [h]
      · simp [Ne.symm hpq]

lemma mem_added {ps : List Prefix} : q ∈ (ps.foldl (add table) s).installed ↔
    q ∈ s.installed ∨ (q ∈ ps ∧ table.add q = .ok ()) := by
  induction ps generalizing s with
  | nil => simp
  | cons p ps ih =>
    rw [List.foldl_cons, ih]
    cases h : table.add p with
    | ok =>
      rw [add_ok h, Std.ExtTreeSet.mem_insert, Std.LawfulEqCmp.compare_eq_iff_eq, List.mem_cons]
      by_cases hpq : p = q
      · subst hpq; simp [h]
      · simp [hpq, Ne.symm hpq]
    | error problem =>
      rw [add_error h, List.mem_cons]
      by_cases hpq : p = q
      · subst hpq; simp [h]
      · simp [Ne.symm hpq]

lemma removed_refused {ps : List Prefix} : (ps.foldl (remove table) s).refused = none ↔
    s.refused = none ∧ ∀ p ∈ ps, table.remove p = .ok () := by
  induction ps generalizing s with
  | nil => simp
  | cons p ps ih =>
    rw [List.foldl_cons, ih, List.forall_mem_cons]
    cases h : table.remove p with
    | ok => rw [remove_ok h]; simp
    | error problem => rw [remove_error h]; simp

lemma added_refused {ps : List Prefix} : (ps.foldl (add table) s).refused = none ↔
    s.refused = none ∧ ∀ p ∈ ps, table.add p = .ok () := by
  induction ps generalizing s with
  | nil => simp
  | cons p ps ih =>
    rw [List.foldl_cons, ih, List.forall_mem_cons]
    cases h : table.add p with
    | ok => rw [add_ok h]; simp
    | error problem => rw [add_error h]; simp

end Applying

lemma Routes.apply_installed :
    (r.apply table wanted).2.installed = (r.applying table wanted).installed := by
  unfold Routes.apply
  dsimp only
  split <;> rfl

/-- **What `apply` leaves installed**: what it found and was wanted, the rows whose removal was
refused, and the rows whose addition was accepted. -/
theorem Routes.mem_apply : q ∈ (r.apply table wanted).2.installed ↔
    (q ∈ r.installed ∧ (q ∉ wanted → table.remove q ≠ .ok ())) ∨
      (q ∈ wanted ∧ q ∉ r.installed ∧ table.add q = .ok ()) := by
  rw [Routes.apply_installed, Routes.applying, Applying.mem_added]
  simp only [mem_difference, Applying.mem_removed]
  tauto

/-- **`apply` succeeds exactly when no row it needs to move is refused.** -/
theorem Routes.apply_ok_iff : (∃ change, (r.apply table wanted).1 = .ok change) ↔
    (∀ p ∈ r.installed, p ∉ wanted → table.remove p = .ok ()) ∧
      ∀ p ∈ wanted, p ∉ r.installed → table.add p = .ok () := by
  have hnone : (∃ change, (r.apply table wanted).1 = .ok change) ↔
      (r.applying table wanted).refused = none := by
    unfold Routes.apply
    dsimp only
    split <;> simp [*]
  rw [hnone, Routes.applying, Applying.added_refused, Applying.removed_refused]
  simp only [mem_difference, Applying.mem_removed]
  constructor
  · rintro ⟨⟨-, hr⟩, ha⟩
    exact ⟨fun p hp hw => hr p ⟨hp, hw⟩, fun p hw hp => ha p ⟨hw, fun h => hp h.1⟩⟩
  · rintro ⟨hr, ha⟩
    exact ⟨⟨trivial, fun p hp => hr p hp.1 hp.2⟩,
      fun p hp => ha p hp.1 fun h => hp.2 ⟨h, fun hn => absurd hp.1 hn.2⟩⟩

/-- A row that has to be moved, and what the table says to it. -/
def RowMoves (table : RouteTable) (r : Routes) (wanted : Prefixes) (said : Except TunError Unit → Prop) :
    Prop :=
  (∃ p ∈ r.installed, p ∉ wanted ∧ said (table.remove p)) ∨
    ∃ p ∈ wanted, p ∉ r.installed ∧ said (table.add p)

/-- `apply` fails exactly when a row that has to be moved is refused. -/
lemma Routes.apply_error_iff : (∃ problem, (r.apply table wanted).1 = .error problem) ↔
    RowMoves table r wanted (· ≠ .ok ()) := by
  have hok : (∃ problem, (r.apply table wanted).1 = .error problem) ↔
      ¬∃ change, (r.apply table wanted).1 = .ok change := by
    cases (r.apply table wanted).1 <;> simp
  rw [hok, Routes.apply_ok_iff, not_and_or, RowMoves]
  simp only [not_forall, exists_prop, ne_eq]

/-- `apply` leaves the set as it was exactly when no row that has to be moved is accepted. -/
lemma Routes.apply_unchanged_iff : (r.apply table wanted).2.installed = r.installed ↔
    ¬RowMoves table r wanted (· = .ok ()) := by
  constructor
  · rintro h (⟨p, hp, hw, ha⟩ | ⟨p, hw, hp, ha⟩)
    · rw [← h, Routes.mem_apply] at hp
      rcases hp with ⟨-, hn⟩ | ⟨hw', -⟩
      · exact hn hw ha
      · exact hw hw'
    · exact hp (h ▸ Routes.mem_apply.mpr (.inr ⟨hw, hp, ha⟩))
  · intro h
    refine Std.ExtTreeSet.ext_mem fun p => ?_
    rw [Routes.mem_apply]
    constructor
    · rintro (⟨hp, -⟩ | ⟨hw, hp, ha⟩)
      · exact hp
      · exact absurd (.inr ⟨p, hw, hp, ha⟩) h
    · exact fun hp => .inl ⟨hp, fun hw ha => h (.inl ⟨p, hp, hw, ha⟩)⟩

/-- A table that refuses no row. -/
def RouteTable.Accepts (table : RouteTable) : Prop :=
  ∀ p, table.add p = .ok () ∧ table.remove p = .ok ()

/-- Where no row is refused, the set wanted is the set installed. -/
lemma Routes.apply_accepted (h : table.Accepts) : (r.apply table wanted).2 = ⟨wanted⟩ := by
  have hmem : (r.apply table wanted).2.installed = wanted := by
    refine Std.ExtTreeSet.ext_mem fun q => ?_
    rw [Routes.mem_apply]
    simp only [(h q).1, (h q).2]
    tauto
  cases hr : (r.apply table wanted).2
  rw [hr] at hmem
  rw [← hmem]

end Masqr.Tun
