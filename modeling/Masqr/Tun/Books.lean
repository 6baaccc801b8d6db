import Mathlib
import Masqr.Tun.Routes

/-!
The books `apply` keeps on a table that refuses rows: what is installed against the rows there
are, and what was asked of the table.
-/

namespace Masqr.Tun

/-- One thing asked of the table. -/
inductive Attempt
  | remove (p : Prefix)
  | add (p : Prefix)
  deriving DecidableEq

/-- The refusal of an attempt, where it is refused. -/
def RouteTable.refusal (answers : RouteTable) : Attempt → Option TunError
  | .remove p => match answers.remove p with
    | .ok () => none
    | .error problem => some problem
  | .add p => match answers.add p with
    | .ok () => none
    | .error problem => some problem

/-- A table by the rows in it and by all that was asked of it. -/
structure Bench where
  rows : Prefixes
  attempts : List Attempt

namespace Bench

def remove (answers : RouteTable) (t : Bench) (p : Prefix) : Except TunError Unit × Bench :=
  let attempts := t.attempts ++ [.remove p]
  match answers.remove p with
  | .ok () => (.ok (), ⟨t.rows.erase p, attempts⟩)
  | .error problem => (.error problem, ⟨t.rows, attempts⟩)

def add (answers : RouteTable) (t : Bench) (p : Prefix) : Except TunError Unit × Bench :=
  let attempts := t.attempts ++ [.add p]
  match answers.add p with
  | .ok () => (.ok (), ⟨t.rows.insert p, attempts⟩)
  | .error problem => (.error problem, ⟨t.rows, attempts⟩)

/-- One turn of the first loop of `apply`. -/
def going (answers : RouteTable) : Applying × Bench → Prefix → Applying × Bench := fun (s, t) p =>
  match t.remove answers p with
  | (.ok (), t) => ({ s with
      installed := s.installed.erase p
      change := { s.change with removed := s.change.removed ++ [p] } }, t)
  | (.error problem, t) => ({ s with refused := s.refused.or (some problem) }, t)

/-- One turn of the second. -/
def coming (answers : RouteTable) : Applying × Bench → Prefix → Applying × Bench := fun (s, t) p =>
  match t.add answers p with
  | (.ok (), t) => ({ s with
      installed := s.installed.insert p
      change := { s.change with added := s.change.added ++ [p] } }, t)
  | (.error problem, t) => ({ s with refused := s.refused.or (some problem) }, t)

/-- Both loops of `apply`. -/
def applying (answers : RouteTable) (t : Bench) (r : Routes) (wanted : Prefixes) :
    Applying × Bench :=
  let (s, t) := (difference r.installed wanted).foldl (going answers)
    (⟨r.installed, ⟨[], []⟩, none⟩, t)
  (difference wanted s.installed).foldl (coming answers) (s, t)

/-- Make the installed set match `wanted` on a table. -/
def apply (answers : RouteTable) (t : Bench) (r : Routes) (wanted : Prefixes) :
    Except TunError Change × Routes × Bench :=
  let (s, t) := t.applying answers r wanted
  match s.refused with
  | some problem => (.error problem, ⟨s.installed⟩, t)
  | none => (.ok s.change, ⟨s.installed⟩, t)

/-! ### The books against the table -/

variable {answers : RouteTable} {s : Applying} {t : Bench} {p : Prefix}

/-- A turn asks the table once, and keeps the set as the rows are. -/
lemma going_eq (h : s.installed = t.rows) : going answers (s, t) p =
    (s.remove answers p, ⟨(s.remove answers p).installed, t.attempts ++ [.remove p]⟩) := by
  unfold going remove Applying.remove
  cases answers.remove p <;> simp [h]

lemma coming_eq (h : s.installed = t.rows) : coming answers (s, t) p =
    (s.add answers p, ⟨(s.add answers p).installed, t.attempts ++ [.add p]⟩) := by
  unfold coming add Applying.add
  cases answers.add p <;> simp [h]

/-- Turns of one loop, each of which asks once. -/
lemma foldl_turns {turn : Applying × Bench → Prefix → Applying × Bench}
    {once : Applying → Prefix → Applying} {asks : Prefix → Attempt}
    (hturn : ∀ {s t p}, s.installed = t.rows →
      turn (s, t) p = (once s p, ⟨(once s p).installed, t.attempts ++ [asks p]⟩))
    {ps : List Prefix} (h : s.installed = t.rows) : ps.foldl turn (s, t) =
      (ps.foldl once s, ⟨(ps.foldl once s).installed, t.attempts ++ ps.map asks⟩) := by
  induction ps generalizing s t with
  | nil => simp [h]
  | cons p ps ih =>
    rw [List.foldl_cons, hturn h, ih rfl]
    simp

/-- What is asked of the table: every removal, then every addition. -/
def attempted (r : Routes) (wanted : Prefixes) : List Attempt :=
  (difference r.installed wanted).map .remove ++ (difference wanted r.installed).map .add

/-- What the removals leave of a set lacks as much of what is wanted. -/
lemma difference_removed {r : Routes} {wanted : Prefixes} {s : Applying}
    (hs : s.installed = r.installed) :
    difference wanted
        ((difference r.installed wanted).foldl (Applying.remove answers) s).installed =
      difference wanted r.installed := by
  refine List.filter_congr fun q hq => ?_
  have hw : q ∈ wanted := Std.ExtTreeSet.mem_toList.mp hq
  simp [Applying.mem_removed, mem_difference, hs, hw]

/-- On a table whose rows are those installed, `apply` does what it does by the answers alone,
leaves the rows as it leaves the set, and asks for every difference once. -/
lemma apply_eq {r : Routes} {wanted : Prefixes} (h : r.installed = t.rows) :
    t.apply answers r wanted = ((r.apply answers wanted).1, (r.apply answers wanted).2,
      ⟨(r.apply answers wanted).2.installed, t.attempts ++ attempted r wanted⟩) := by
  have hloops : t.applying answers r wanted = (r.applying answers wanted,
      ⟨(r.applying answers wanted).installed, t.attempts ++ attempted r wanted⟩) := by
    unfold applying Routes.applying attempted
    rw [foldl_turns going_eq h]
    dsimp only
    rw [foldl_turns coming_eq rfl, difference_removed rfl, List.append_assoc]
  rw [apply, hloops, Routes.apply]
  dsimp only
  cases (r.applying answers wanted).refused <;> rfl

/-! ### What is refused, and what moves -/

/-- The refusal a loop ends with is the first of those it had and met. -/
lemma refused_turns {once : Applying → Prefix → Applying} {asks : Prefix → Attempt}
    (honce : ∀ s p, (once s p).refused = s.refused.or (answers.refusal (asks p)))
    {ps : List Prefix} : (ps.foldl once s).refused =
      s.refused.or ((ps.map asks).findSome? answers.refusal) := by
  induction ps generalizing s with
  | nil => simp
  | cons p ps ih =>
    rw [List.foldl_cons, ih, List.map_cons, List.findSome?_cons, honce, Option.or_assoc]
    cases answers.refusal (asks p) <;> rfl

lemma remove_refused (s : Applying) (p : Prefix) :
    (s.remove answers p).refused = s.refused.or (answers.refusal (.remove p)) := by
  cases h : answers.remove p with
  | ok => rw [Applying.remove_ok h]; simp [RouteTable.refusal, h]
  | error problem => rw [Applying.remove_error h]; simp [RouteTable.refusal, h]

lemma add_refused (s : Applying) (p : Prefix) :
    (s.add answers p).refused = s.refused.or (answers.refusal (.add p)) := by
  cases h : answers.add p with
  | ok => rw [Applying.add_ok h]; simp [RouteTable.refusal, h]
  | error problem => rw [Applying.add_error h]; simp [RouteTable.refusal, h]

lemma change_removals {ps : List Prefix} (h : ∀ p ∈ ps, answers.remove p = .ok ()) :
    (ps.foldl (Applying.remove answers) s).change =
      { s.change with removed := s.change.removed ++ ps } := by
  induction ps generalizing s with
  | nil => simp
  | cons p ps ih =>
    obtain ⟨hp, hps⟩ := List.forall_mem_cons.mp h
    rw [List.foldl_cons, ih hps, Applying.remove_ok hp]
    simp

lemma change_additions {ps : List Prefix} (h : ∀ p ∈ ps, answers.add p = .ok ()) :
    (ps.foldl (Applying.add answers) s).change =
      { s.change with added := s.change.added ++ ps } := by
  induction ps generalizing s with
  | nil => simp
  | cons p ps ih =>
    obtain ⟨hp, hps⟩ := List.forall_mem_cons.mp h
    rw [List.foldl_cons, ih hps, Applying.add_ok hp]
    simp

variable {r : Routes} {wanted : Prefixes}

/-- `apply` fails with the first refusal among what it attempts. -/
lemma apply_refused : (r.applying answers wanted).refused =
    (attempted r wanted).findSome? answers.refusal := by
  rw [Routes.applying, refused_turns add_refused, difference_removed rfl,
    refused_turns remove_refused, attempted, List.findSome?_append]
  simp

lemma refusal_remove (p : Prefix) : answers.refusal (.remove p) = none ↔
    answers.remove p = .ok () := by
  cases h : answers.remove p <;> simp [RouteTable.refusal, h]

lemma refusal_add (p : Prefix) : answers.refusal (.add p) = none ↔ answers.add p = .ok () := by
  cases h : answers.add p <;> simp [RouteTable.refusal, h]

/-- What has moved where nothing was refused. -/
lemma apply_change (h : (attempted r wanted).findSome? answers.refusal = none) :
    (r.applying answers wanted).change =
      ⟨difference wanted r.installed, difference r.installed wanted⟩ := by
  have hnone : ∀ a ∈ attempted r wanted, answers.refusal a = none := List.findSome?_eq_none_iff.mp h
  have hremove : ∀ p ∈ difference r.installed wanted, answers.remove p = .ok () := fun p hp =>
    (refusal_remove p).mp (hnone _ (List.mem_append_left _ (List.mem_map_of_mem hp)))
  have hadd : ∀ p ∈ difference wanted r.installed, answers.add p = .ok () := fun p hp =>
    (refusal_add p).mp (hnone _ (List.mem_append_right _ (List.mem_map_of_mem hp)))
  rw [Routes.applying, difference_removed rfl, change_additions hadd, change_removals hremove]
  simp

/-- What `apply` owes to a table that may refuse any of its rows. -/
structure Straight (answers : RouteTable) (t : Bench) (r : Routes) (wanted : Prefixes)
    (result : Except TunError Change) (r' : Routes) (t' : Bench) : Prop where
  /-- The set installed is the rows there are. -/
  rows : r'.installed = t'.rows
  /-- It is what was installed and is wanted, what could not be removed, and what was added. -/
  installed : ∀ q, q ∈ r'.installed ↔ (q ∈ r.installed ∧ q ∈ wanted) ∨
    (q ∈ r.installed ∧ q ∉ wanted ∧ (answers.refusal (.remove q)).isSome) ∨
    (q ∈ wanted ∧ q ∉ r.installed ∧ answers.refusal (.add q) = none)
  /-- Every row of the difference was attempted once, the removals first, and no other. -/
  attempts : ∃ going coming : List Prefix,
    t'.attempts = t.attempts ++ going.map .remove ++ coming.map .add ∧
      going.Nodup ∧ (∀ q, q ∈ going ↔ q ∈ r.installed ∧ q ∉ wanted) ∧
      coming.Nodup ∧ (∀ q, q ∈ coming ↔ q ∈ wanted ∧ q ∉ r.installed) ∧
      (∀ problem, result = .error problem ↔
        (going.map Attempt.remove ++ coming.map Attempt.add).findSome? answers.refusal =
          some problem) ∧
      ∀ change, result = .ok change → change = ⟨coming, going⟩ ∧ r'.installed = wanted

lemma difference_nodup (a b : Prefixes) : (difference a b).Nodup := by
  refine List.Nodup.filter _ (a.distinct_toList.imp fun hne he => hne ?_)
  exact Std.LawfulEqCmp.compare_eq_iff_eq.mpr he

lemma apply_result : (r.apply answers wanted).1 =
    match (attempted r wanted).findSome? answers.refusal with
    | some problem => .error problem
    | none => .ok ⟨difference wanted r.installed, difference r.installed wanted⟩ := by
  unfold Routes.apply
  dsimp only
  rw [apply_refused]
  cases h : (attempted r wanted).findSome? answers.refusal with
  | none => simp [apply_change h]
  | some problem => rfl

/-- Where nothing is refused, what is wanted is what is installed. -/
lemma apply_whole {change : Change} (h : (r.apply answers wanted).1 = .ok change) :
    (r.apply answers wanted).2.installed = wanted := by
  obtain ⟨hremove, hadd⟩ := Routes.apply_ok_iff.mp ⟨change, h⟩
  refine Std.ExtTreeSet.ext_mem fun q => ?_
  rw [Routes.mem_apply]
  have hremove := hremove q
  have hadd := hadd q
  tauto

/-- A set applied twice asks nothing of the table. -/
lemma apply_nothing (answers : RouteTable) (t : Bench) (wanted : Prefixes) :
    t.apply answers ⟨wanted⟩ wanted = (.ok ⟨[], []⟩, ⟨wanted⟩, t) := by
  have hnone : difference wanted wanted = [] := by
    refine List.eq_nil_iff_forall_not_mem.mpr fun q hq => ?_
    exact (mem_difference.mp hq).2 (mem_difference.mp hq).1
  unfold apply applying
  simp [hnone]

/-- Where no row is refused, the set wanted is installed, and the rows are as the set says. -/
lemma apply_accepts (h : r.installed = t.rows) (hacc : answers.Accepts) :
    ∃ change t', t.apply answers r wanted = (.ok change, ⟨wanted⟩, t') ∧ t'.rows = wanted := by
  obtain ⟨change, hok⟩ := Routes.apply_ok_iff.mpr
    ⟨fun p _ (_ : p ∉ wanted) => (hacc p).2, fun p _ (_ : p ∉ r.installed) => (hacc p).1⟩
  refine ⟨change, ⟨wanted, t.attempts ++ attempted r wanted⟩, ?_, rfl⟩
  rw [apply_eq h, hok, Routes.apply_accepted hacc]

/-- **`apply` leaves the books straight under any refusals**, and applying the same set again
where none is left completes it. -/
theorem apply_straight (answers : RouteTable) (t : Bench) (r : Routes) (wanted : Prefixes)
    (h : r.installed = t.rows) :
    ∃ result r' t', t.apply answers r wanted = (result, r', t') ∧
      Straight answers t r wanted result r' t' ∧
      ∀ accepting : RouteTable, accepting.Accepts →
        ∃ change t'', t'.apply accepting r' wanted = (.ok change, ⟨wanted⟩, t'') ∧
          t''.rows = wanted ∧
          ∀ later : RouteTable,
            t''.apply later ⟨wanted⟩ wanted = (.ok ⟨[], []⟩, ⟨wanted⟩, t'') := by
  refine ⟨_, _, _, apply_eq h, ⟨rfl, fun q => ?_, ⟨difference r.installed wanted,
    difference wanted r.installed, by simp [attempted], difference_nodup _ _,
    fun q => mem_difference, difference_nodup _ _, fun q => mem_difference, fun problem => ?_,
    fun change hok => ?_⟩⟩, fun accepting hacc => ?_⟩
  · simp only [Routes.mem_apply, Option.isSome_iff_ne_none, ne_eq, refusal_remove, refusal_add]
    tauto
  · rw [apply_result]
    change _ ↔ (attempted r wanted).findSome? answers.refusal = some problem
    cases (attempted r wanted).findSome? answers.refusal <;> simp
  · refine ⟨?_, apply_whole hok⟩
    rw [apply_result] at hok
    cases hn : (attempted r wanted).findSome? answers.refusal with
    | some problem => simp [hn] at hok
    | none => simpa [hn] using hok.symm
  · obtain ⟨change, t'', happly, hrows⟩ := apply_accepts (r := (r.apply answers wanted).2)
      (t := ⟨_, t.attempts ++ attempted r wanted⟩) rfl hacc
    exact ⟨change, t'', happly, hrows, fun later => apply_nothing later t'' wanted⟩

/-- A row that cannot be removed, and one that cannot be added. -/
def stuck : RouteTable where
  remove p := if p = (.v4 0x09090909, 32) then .error (.routeRemoval p 5) else .ok ()
  add p := if p = (.v4 0x08080808, 32) then .error (.route p 87) else .ok ()

theorem apply_straight_stuck : ∃ result r' t',
    apply stuck ⟨{(.v4 0x09090909, 32)}, []⟩ ⟨{(.v4 0x09090909, 32)}⟩ {(.v4 0x08080808, 32)} =
      (result, r', t') ∧
    Straight stuck ⟨{(.v4 0x09090909, 32)}, []⟩ ⟨{(.v4 0x09090909, 32)}⟩ {(.v4 0x08080808, 32)}
      result r' t' := by
  obtain ⟨result, r', t', happly, hstraight, -⟩ := apply_straight stuck
    ⟨{(.v4 0x09090909, 32)}, []⟩ ⟨{(.v4 0x09090909, 32)}⟩ {(.v4 0x08080808, 32)} rfl
  exact ⟨result, r', t', happly, hstraight⟩

end Bench

end Masqr.Tun
