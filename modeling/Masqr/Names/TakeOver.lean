import Masqr.Names.Registry

/-!
Taking the machine's names over and giving them back, and what a takeover that fails
leaves behind.
-/

namespace Masqr.Names

open Masqr.Lib Masqr.Lib.Prog Masqr.Lib.Outcome

/-- The rule this core writes. -/
def RULE : String := "{6D617371-7200-4000-8000-6E616D657301}"

/-- What marks a rule as this core's, carried on the rule itself. -/
def MARK : String := "masqr"

/-- The namespace meaning every name. -/
def EVERY_NAME : String := "."

/-- The bit saying the rule names ordinary DNS servers. -/
def USES_GENERIC_SERVERS : UInt32 := 0x8

/-- The rule format this is written in. -/
def RULE_VERSION : UInt32 := 2

/-- Whether the comment of a rule is the mark, as the sweep reads it. -/
def isOurs (name : String) : Reg Bool := do
  if ← openKey (some name) then
    let comment ← readText name "Comment"
    return comment == some MARK.toList
  else return false

/-- Those of some rules that carry the mark. -/
def ours : List String → Reg (List String)
  | [] => return []
  | name :: rest => do
    let mine ← isOurs name
    let more ← ours rest
    return if mine then name :: more else more

/-- Delete some rules, and say how many went. -/
def removeAll : List String → Reg ℕ
  | [] => return 0
  | name :: rest => do
    let code : ℕ ← ask (.delete name)
    let removed ← removeAll rest
    return if code = NO_ERROR then removed + 1 else removed

/-- Remove every rule this core wrote, and say how many there were. -/
def release : Reg ℕ := do
  if ← openKey none then
    let found ← subkeys
    let mine ← ours found
    removeAll mine
  else return 0

/-- Write the rule. -/
def claim (server : String) : Try Unit := do
  create RULE
  setNumber RULE "Version" RULE_VERSION
  setNames RULE "Name" EVERY_NAME
  setText RULE "GenericDNSServers" server
  setNumber RULE "ConfigOptions" USES_GENERIC_SERVERS
  setText RULE "Comment" MARK
  setText RULE "DisplayName" MARK

/-- Point every name on this machine at the resolver at `server`, and prove that it worked. -/
def takeOver (server : String) : Try Unit := do
  claim server
  let carried : Bool ← ExceptT.lift (ask .arrived)
  if !carried then
    let _ ← ExceptT.lift release
    throw .notCarried

/-! ### What the sweep sees -/

/-- Whether a rule carries the mark. -/
def Marked (rule : Rule) : Prop := (rule["Comment"]?.bind Value.text) = some MARK.toList

instance (rule : Rule) : Decidable (Marked rule) := inferInstanceAs (Decidable (_ = _))

/-- Whether there is a rule of this name that carries the mark. -/
def Mine (r : Rules) (name : String) : Prop := ∃ rule, r[name]? = some rule ∧ Marked rule

instance (r : Rules) (name : String) : Decidable (Mine r name) :=
  decidable_of_iff (r[name]?.any fun rule => decide (Marked rule)) (by
    simp only [Mine, Option.any_eq_true, decide_eq_true_eq])

/-- The text a value of a rule holds, if there is one. -/
def textOf (r : Rules) (rule name : String) : Option (List Char) :=
  (r[rule]?.bind fun values => values[name]?).bind Value.text

lemma mine_iff (r : Rules) (name : String) :
    Mine r name ↔ textOf r name "Comment" = some MARK.toList := by
  unfold Mine textOf Marked
  cases r[name]? with
  | none => simp
  | some rule => simp

lemma text_some {v : Option Value} (h : (v.bind Value.text).isNone = false) :
    v.map (fun v => fromUtf16Lossy ((units v.data).takeWhile fun u => decide (u ≠ 0)))
      = v.bind Value.text := by
  cases v with
  | none => rfl
  | some v =>
    simp only [Option.bind_some, Option.map_some, Value.text] at h ⊢
    split_ifs at h ⊢
    · cases h
    · rfl

/-- Reading a text writes nothing, and reads what is there or nothing. -/
lemma readText_leaves (r : Rules) (rule name : String) :
    Leaves perform (readText rule name) r fun r' v =>
      r' = r ∧ ∀ t, v = some (some t) → textOf r rule name = some t := by
  unfold readText ask
  simp only [ask_bind]
  refine leaves_call ⟨rfl, nofun⟩ fun o _ => ?_
  by_cases hn : ((perform r (.query rule name) o).1.bind Value.text).isNone = true
  · rw [if_pos hn]
    exact leaves_done ⟨rfl, nofun⟩
  · rw [if_neg hn]
    refine leaves_call ⟨rfl, nofun⟩ fun o' _ => leaves_done ⟨rfl, fun t ht => ?_⟩
    rw [Bool.not_eq_true] at hn
    simp only [perform] at hn ht
    by_cases ho : o = .accepted
    · by_cases ho' : o' = .accepted
      · rw [if_pos ho] at hn
        rw [if_pos ho', text_some hn] at ht
        exact Option.some.inj ht
      · rw [if_neg ho'] at ht
        cases ht
    · rw [if_neg ho] at hn
      cases hn

lemma readText_runAll (r : Rules) (rule name : String) :
    runAll perform (readText rule name) r = (textOf r rule name, r) := by
  unfold readText ask
  simp only [ask_bind, runAll_call, perform, if_pos]
  by_cases hn : ((r[rule]?.bind fun values => values[name]?).bind Value.text).isNone = true
  · rw [if_pos hn]
    simp only [pure_eq, runAll_done, Prod.mk.injEq, and_true]
    exact (Option.isNone_iff_eq_none.mp hn).symm
  · rw [if_neg hn]
    rw [Bool.not_eq_true] at hn
    simp only [runAll_call, perform, if_pos, pure_eq, runAll_done, text_some hn]
    rfl

/-- Reading the mark writes nothing, and sees no mark that is not there. -/
lemma isOurs_leaves (r : Rules) (name : String) :
    Leaves perform (isOurs name) r fun r' v => r' = r ∧ (v = some true → Mine r name) := by
  unfold isOurs openKey ask
  rw [ask_bind]
  refine leaves_call ⟨rfl, nofun⟩ fun o _ => ?_
  by_cases ho : (perform r (.openKey (some name)) o).1 = true
  · rw [if_pos ho]
    refine leaves_bind (readText_leaves r name "Comment") (fun r' h => ⟨h.1, nofun⟩)
      fun r' t ht => leaves_done ⟨ht.1, fun h => ?_⟩
    rw [mine_iff]
    refine ht.2 _ (congrArg some ?_)
    simpa using h
  · rw [if_neg ho]
    exact leaves_done ⟨rfl, nofun⟩

lemma isOurs_runAll (r : Rules) (name : String) :
    runAll perform (isOurs name) r = (decide (Mine r name), r) := by
  unfold isOurs openKey ask
  rw [ask_bind, runAll_call]
  by_cases ho : (perform r (.openKey (some name)) .accepted).1 = true
  · rw [if_pos ho]
    change runAll perform (readText name "Comment" >>= _) r = _
    rw [runAll_bind, readText_runAll]
    simp only [pure_eq, runAll_done, Prod.mk.injEq, and_true]
    rw [Bool.eq_iff_iff, decide_eq_true_eq, mine_iff, beq_iff_eq]
  · rw [if_neg ho]
    have hm : ¬Mine r name := fun ⟨rule, hr, _⟩ => ho (by simp [perform, hr])
    simp only [pure_eq, runAll_done, perform, hm, decide_false]

lemma ours_leaves (r : Rules) (names : List String) :
    Leaves perform (ours names) r fun r' v => r' = r ∧ ∀ l, v = some l → ∀ n ∈ l, Mine r n := by
  induction names with
  | nil => exact leaves_done ⟨rfl, fun l hl => by obtain rfl := Option.some.inj hl; nofun⟩
  | cons name rest ih =>
    refine leaves_bind (isOurs_leaves r name) (fun r' h => ⟨h.1, nofun⟩) ?_
    rintro r' mine ⟨rfl, hmine⟩
    refine leaves_bind ih (fun r' h => ⟨h.1, nofun⟩) ?_
    rintro r' more ⟨rfl, hmore⟩
    refine leaves_done ⟨rfl, fun l hl n hn => ?_⟩
    obtain rfl := Option.some.inj hl
    split_ifs at hn with hb
    · rcases List.mem_cons.mp hn with rfl | hn
      · exact hmine (by rw [hb])
      · exact hmore more rfl n hn
    · exact hmore more rfl n hn

lemma ours_runAll (r : Rules) (names : List String) :
    runAll perform (ours names) r = (names.filter fun n => decide (Mine r n), r) := by
  induction names with
  | nil => rfl
  | cons name rest ih =>
    unfold ours
    rw [runAll_bind, isOurs_runAll]
    dsimp only
    rw [runAll_bind, ih]
    simp only [pure_eq, runAll_done, List.filter_cons]

/-- Rules taken out by name. -/
def eraseAll (r : Rules) (names : List String) : Rules := names.foldl (fun r n => r.erase n) r

/-- `r'` is `r` without some of the rules named. -/
def Without (names : List String) (r r' : Rules) : Prop :=
  ∀ k, r'[k]? = r[k]? ∨ (k ∈ names ∧ r'[k]? = none)

lemma removeAll_leaves (names : List String) (r : Rules) :
    Leaves perform (removeAll names) r fun r' _ => Without names r r' := by
  induction names generalizing r with
  | nil => exact leaves_done fun k => .inl rfl
  | cons name rest ih =>
    unfold removeAll ask
    rw [ask_bind]
    refine leaves_call (fun k => .inl rfl) fun o _ => ?_
    have hr : ∀ k, (perform r (.delete name) o).2[k]? = r[k]? ∨
        (k = name ∧ (perform r (.delete name) o).2[k]? = none) := fun k => by
      rw [perform_delete]
      split_ifs with ho
      · rw [getElem?_erase]
        split_ifs with hk
        · exact .inr ⟨hk.symm, rfl⟩
        · exact .inl rfl
      · exact .inl rfl
    have hstep : ∀ r', Without rest (perform r (.delete name) o).2 r' →
        Without (name :: rest) r r' := fun r' h k => by
      rcases h k with h | h
      · rw [h]
        rcases hr k with h' | ⟨rfl, h'⟩
        · exact .inl h'
        · exact .inr ⟨List.mem_cons_self, h'⟩
      · exact .inr ⟨List.mem_cons_of_mem _ h.1, h.2⟩
    exact leaves_bind (ih _) hstep fun r' _ h => leaves_done (hstep r' h)

lemma removeAll_runAll (names : List String) (r : Rules) :
    (runAll perform (removeAll names) r).2 = eraseAll r names := by
  induction names generalizing r with
  | nil => rfl
  | cons name rest ih =>
    unfold removeAll ask
    rw [ask_bind, runAll_call, runAll_bind]
    simp only [pure_eq, runAll_done]
    rw [ih, perform_delete, if_pos rfl]
    rfl

variable {r : Rules}

lemma getElem?_eraseAll (names : List String) (r : Rules) (k : String) :
    (eraseAll r names)[k]? = if k ∈ names then none else r[k]? := by
  induction names generalizing r with
  | nil => simp [eraseAll]
  | cons name rest ih =>
    rw [eraseAll, List.foldl_cons]
    change (eraseAll (r.erase name) rest)[k]? = _
    rw [ih, getElem?_erase]
    by_cases hk : name = k
    · simp [hk]
    · simp [hk, Ne.symm hk]

/-- **A sweep removes nothing but rules that carry the mark**, whatever becomes of its
calls. -/
theorem release_leaves (r : Rules) :
    Leaves perform release r fun r' _ => ∀ k, r'[k]? = r[k]? ∨ (Mine r k ∧ r'[k]? = none) := by
  unfold release openKey subkeys ask
  rw [ask_bind]
  refine leaves_call (fun k => .inl rfl) fun o _ => ?_
  by_cases ho : (perform r (.openKey none) o).1 = true
  · rw [if_pos ho, ask_bind]
    refine leaves_call (fun k => .inl rfl) fun o' _ => ?_
    have hs : (perform r .subkeys o').2 = r := by cases o' <;> rfl
    change Leaves perform (ours (perform r .subkeys o').1 >>= removeAll)
      (perform r .subkeys o').2 _
    rw [hs]
    refine leaves_bind (ours_leaves r _) (fun r' h k => .inl (by rw [h.1])) ?_
    rintro r' mine ⟨rfl, hmine⟩
    refine (removeAll_leaves mine r').mono fun r'' _ h k => ?_
    rcases h k with h | ⟨hk, h⟩
    · exact .inl h
    · exact .inr ⟨hmine mine rfl k hk, h⟩
  · rw [if_neg ho]
    exact leaves_done fun k => .inl rfl

/-- The rules after a sweep none of whose calls is refused. -/
def swept (r : Rules) : Rules := (runAll perform release r).2

/-- **A sweep that is not hindered removes every rule that carries the mark, and no other.** -/
theorem getElem?_swept (r : Rules) (k : String) :
    (swept r)[k]? = if Mine r k then none else r[k]? := by
  have h : swept r = eraseAll r (r.keys.filter fun n => decide (Mine r n)) := by
    unfold swept release openKey subkeys ask
    rw [ask_bind, runAll_call, if_pos (by rfl), ask_bind, runAll_call]
    change (runAll perform (ours r.keys >>= removeAll) r).2 = _
    rw [runAll_bind, ours_runAll, removeAll_runAll]
  rw [h, getElem?_eraseAll]
  refine if_congr ?_ rfl rfl
  rw [List.mem_filter, decide_eq_true_eq, Std.ExtTreeMap.mem_keys]
  refine ⟨fun h => h.2, fun h => ⟨?_, h⟩⟩
  obtain ⟨rule, hr, -⟩ := h
  rw [Std.ExtTreeMap.mem_iff_isSome_getElem?, hr]
  rfl

/-! ### What a claim writes -/

/-- The values of the rule, in the order they are written in. -/
def ruleValues (server : String) : List (String × Value) :=
  [("Version", ⟨REG_DWORD, number RULE_VERSION⟩), ("Name", ⟨REG_MULTI_SZ, names EVERY_NAME⟩),
    ("GenericDNSServers", ⟨REG_SZ, text server⟩),
    ("ConfigOptions", ⟨REG_DWORD, number USES_GENERIC_SERVERS⟩),
    ("Comment", ⟨REG_SZ, text MARK⟩), ("DisplayName", ⟨REG_SZ, text MARK⟩)]

/-- A rule with some values written to it. -/
def written (rule : Rule) (ws : List (String × Value)) : Rule :=
  ws.foldl (fun rule w => rule.insert w.1 w.2) rule

def writeAll : List (String × Value) → Try Unit
  | [] => pure ()
  | w :: ws => do
    write RULE w.1 w.2.kind w.2.data
    writeAll ws

lemma claim_eq (server : String) :
    claim server = (create RULE >>= fun _ => writeAll (ruleValues server)) := by
  unfold claim
  refine congrArg _ (funext fun _ => ?_)
  simp only [ruleValues, writeAll, setNumber, setNames, setText, bind_pure_unit]

lemma exec_write {rule : String} {values : Rule} (h : r[rule]? = some values) (name : String)
    (kind : ℕ) (data : List UInt8) (os : ℕ → Outcome) :
    exec perform (write rule name kind data).run os r = match os 0 with
      | .killed => ⟨r, os, none⟩
      | .accepted => ⟨r.insert rule (values.insert name ⟨kind, data⟩), later os, some (.ok ())⟩
      | .refused n => ⟨r, later os,
          some (.error (.registry "writing a value of the rule" (n + 1)))⟩ := by
  unfold write ask
  simp only [ExceptT.run_bind_lift, ask_bind]
  cases ho : os 0 with
  | killed => rw [exec_killed perform ho]
  | accepted =>
    rw [exec_call perform (by rw [ho]; decide), ho, perform_set h]
    rfl
  | refused n =>
    rw [exec_call perform (by rw [ho]; simp), ho, perform_set h]
    rfl

lemma insert_insert (r : Rules) (name : String) (a b : Rule) :
    (r.insert name a).insert name b = r.insert name b :=
  Std.ExtTreeMap.ext_getElem? fun k => by
    simp only [getElem?_insert]
    split_ifs <;> rfl

/-- A run of writes gets as far as the first that is not accepted. -/
lemma exec_writeAll (ws : List (String × Value)) (r : Rules) (values : Rule)
    (os : ℕ → Outcome) :
    let e := exec perform (writeAll ws).run os (r.insert RULE values)
    e.state = r.insert RULE (written values (ws.take (lead ws.length os))) ∧
    (lead ws.length os = ws.length → e.rest = after ws.length os ∧ e.value = some (.ok ())) ∧
    (lead ws.length os < ws.length → e.value ≠ some (.ok ()) ∧
      ((∀ n, os n ≠ .killed) → ∃ err, e.value = some (.error err))) := by
  induction ws generalizing os values with
  | nil => exact ⟨rfl, fun _ => ⟨rfl, rfl⟩, fun h => absurd h (Nat.lt_irrefl 0)⟩
  | cons w ws ih =>
    have hget : (r.insert RULE values)[RULE]? = some values := by
      rw [getElem?_insert, if_pos rfl]
    intro e
    have he : e = exec perform (writeAll (w :: ws)).run os (r.insert RULE values) := rfl
    rw [writeAll, exec_bind_try, exec_write hget] at he
    cases ho : os 0 with
    | killed =>
      rw [ho] at he
      rw [List.length_cons, lead_succ_zero (by rw [ho]; decide), he]
      exact ⟨rfl, fun h => by omega, fun _ => ⟨nofun, fun hk => absurd ho (hk 0)⟩⟩
    | refused n =>
      rw [ho] at he
      rw [List.length_cons, lead_succ_zero (by rw [ho]; simp), he]
      exact ⟨rfl, fun h => by omega, fun _ => ⟨nofun, fun _ => ⟨_, rfl⟩⟩⟩
    | accepted =>
      rw [ho] at he
      simp only [insert_insert] at he
      obtain ⟨h1, h2, h3⟩ := ih (values.insert w.1 w.2) (later os)
      rw [List.length_cons, lead_succ_pos ho, he]
      refine ⟨h1, fun h => ?_, fun h => ?_⟩
      · obtain ⟨h4, h5⟩ := h2 (Nat.succ_injective h)
        exact ⟨by rw [h4, after_later], h5⟩
      · obtain ⟨h4, h5⟩ := h3 (Nat.lt_of_succ_lt_succ h)
        exact ⟨h4, fun hk => h5 fun n => hk (n + 1)⟩

/-- The rules after a claim that wrote the first `k` values of its rule. -/
def claimed (server : String) (r : Rules) (k : ℕ) : Rules :=
  r.insert RULE (written (r[RULE]?.getD ∅) ((ruleValues server).take k))

lemma exec_create (r : Rules) (name : String) (os : ℕ → Outcome) :
    exec perform (create name).run os r = match os 0 with
      | .killed => ⟨r, os, none⟩
      | .accepted => ⟨r.insert name (r[name]?.getD ∅), later os, some (.ok ())⟩
      | .refused n => ⟨r, later os, some (.error (.registry "creating the rule" (n + 1)))⟩ := by
  unfold create ask
  simp only [ExceptT.run_bind_lift, ask_bind]
  cases ho : os 0 with
  | killed => rw [exec_killed perform ho]
  | accepted =>
    rw [exec_call perform (by rw [ho]; decide), ho, perform_create]
    rfl
  | refused n =>
    rw [exec_call perform (by rw [ho]; simp), ho, perform_create]
    rfl

/-- **How far a claim gets**, by the number of its calls accepted before one is not. -/
theorem claim_course (server : String) (r : Rules) (os : ℕ → Outcome) :
    let e := exec perform (claim server).run os r
    e.state = (match lead 7 os with
      | 0 => r
      | k + 1 => claimed server r k) ∧
    (lead 7 os = 7 → e.rest = after 7 os ∧ e.value = some (.ok ())) ∧
    (lead 7 os < 7 → e.value ≠ some (.ok ()) ∧
      ((∀ n, os n ≠ .killed) → ∃ err, e.value = some (.error err))) := by
  intro e
  have he : e = exec perform (claim server).run os r := rfl
  rw [claim_eq, exec_bind_try, exec_create] at he
  cases ho : os 0 with
  | killed =>
    rw [ho] at he
    rw [lead_succ_zero (by rw [ho]; decide), he]
    exact ⟨rfl, nofun, fun _ => ⟨nofun, fun hk => absurd ho (hk 0)⟩⟩
  | refused n =>
    rw [ho] at he
    rw [lead_succ_zero (by rw [ho]; simp), he]
    exact ⟨rfl, nofun, fun _ => ⟨nofun, fun _ => ⟨_, rfl⟩⟩⟩
  | accepted =>
    rw [ho] at he
    obtain ⟨h1, h2, h3⟩ := exec_writeAll (ruleValues server) r (r[RULE]?.getD ∅) (later os)
    rw [lead_succ_pos ho, he]
    refine ⟨h1, fun h => ?_, fun h => ?_⟩
    · obtain ⟨h4, h5⟩ := h2 (Nat.succ_injective h)
      refine ⟨?_, h5⟩
      dsimp only
      rw [h4]
      exact after_later 6 os
    · obtain ⟨h4, h5⟩ := h3 (Nat.lt_of_succ_lt_succ h)
      exact ⟨h4, fun hk => h5 fun n => hk (n + 1)⟩

/-- **What a takeover leaves**, when its claim is cut short, when it is carried, and when it
is not. -/
theorem takeOver_course (server : String) (r : Rules) (os : ℕ → Outcome) :
    let e := exec perform (takeOver server).run os r
    (lead 7 os < 7 → e.state = (match lead 7 os with
        | 0 => r
        | k + 1 => claimed server r k) ∧ e.value ≠ some (.ok ()) ∧
      ((∀ n, os n ≠ .killed) → ∃ err, e.value = some (.error err))) ∧
    (lead 7 os = 7 →
      (os 7 = .accepted → e.state = claimed server r 6 ∧ e.value = some (.ok ())) ∧
      (os 7 = .killed → e.state = claimed server r 6 ∧ e.value = none) ∧
      (∀ n, os 7 = .refused n →
        let e' := exec perform release (after 8 os) (claimed server r 6)
        e.state = e'.state ∧ e.value = e'.value.map fun _ => .error .notCarried)) := by
  intro e
  have he : e = exec perform (takeOver server).run os r := rfl
  obtain ⟨h1, h2, h3⟩ := claim_course server r os
  unfold takeOver at he
  rw [exec_bind_try] at he
  generalize exec perform (claim server).run os r = c at h1 h2 h3 he
  obtain ⟨s', os', v⟩ := c
  dsimp only at h1 h2 h3
  refine ⟨fun h => ?_, fun h => ?_⟩
  · obtain ⟨h4, h5⟩ := h3 h
    rcases v with _ | err | ⟨⟩
    · exact ⟨he ▸ h1, he ▸ nofun, fun hk => nomatch h5 hk⟩
    · exact ⟨he ▸ h1, he ▸ nofun, fun _ => ⟨err, by rw [he]⟩⟩
    · exact absurd rfl h4
  · obtain ⟨rfl, rfl⟩ := h2 h
    rw [h] at h1
    subst h1
    dsimp only at he
    unfold ask at he
    rw [ExceptT.run_bind_lift, ask_bind] at he
    have h7 : after 7 os 0 = os 7 := rfl
    refine ⟨fun ho => ?_, fun ho => ?_, fun n ho => ?_⟩
    · rw [exec_call perform (by rw [h7, ho]; decide), h7, ho] at he
      rw [he]
      exact ⟨rfl, rfl⟩
    · rw [exec_killed perform (by rw [h7, ho])] at he
      rw [he]
      exact ⟨rfl, rfl⟩
    · rw [exec_call perform (by rw [h7, ho]; simp), h7, ho] at he
      have hc : (!(perform (claimed server r 6) .arrived (.refused n)).1) = true := by
        simp [perform]
      have hl : later (after 7 os) = after 8 os := rfl
      have hp : (perform (claimed server r 6) .arrived (.refused n)).2 = claimed server r 6 := rfl
      rw [if_pos hc, ExceptT.run_bind_lift, exec_bind, hl, hp] at he
      generalize exec perform release (after 8 os) (claimed server r 6) = d at he
      rw [he]
      obtain ⟨s', os', _ | n⟩ := d <;> exact ⟨rfl, rfl⟩

/-! ### Values written -/

lemma getElem?_insert_value (rule : Rule) (n k : String) (v : Value) :
    (rule.insert n v)[k]? = if n = k then some v else rule[k]? := by
  rw [Std.ExtTreeMap.getElem?_insert]
  simp

lemma getElem?_written_of_notMem {ws : List (String × Value)} {name : String}
    (h : name ∉ ws.map Prod.fst) (rule : Rule) : (written rule ws)[name]? = rule[name]? := by
  induction ws generalizing rule with
  | nil => rfl
  | cons w ws ih =>
    rw [List.map_cons, List.mem_cons, not_or] at h
    refine (ih h.2 _).trans ?_
    rw [getElem?_insert_value, if_neg (Ne.symm h.1)]

lemma getElem?_written {ws : List (String × Value)} (hn : (ws.map Prod.fst).Nodup)
    {w : String × Value} (hw : w ∈ ws) (rule : Rule) : (written rule ws)[w.1]? = some w.2 := by
  induction ws generalizing rule with
  | nil => nomatch hw
  | cons u ws ih =>
    rw [List.map_cons, List.nodup_cons] at hn
    rcases List.mem_cons.mp hw with rfl | hw
    · refine (getElem?_written_of_notMem hn.1 _).trans ?_
      rw [getElem?_insert_value, if_pos rfl]
    · exact ih hn.2 hw _

/-- Values that are there already change nothing. -/
lemma written_same {ws : List (String × Value)} {rule : Rule}
    (h : ∀ w ∈ ws, rule[w.1]? = some w.2) : written rule ws = rule := by
  induction ws with
  | nil => rfl
  | cons w ws ih =>
    have hw : rule.insert w.1 w.2 = rule := Std.ExtTreeMap.ext_getElem? fun k => by
      rw [getElem?_insert_value]
      split_ifs with hk
      · rw [← hk, h w List.mem_cons_self]
      · rfl
    change written (rule.insert w.1 w.2) ws = rule
    rw [hw]
    exact ih fun w hm => h w (List.mem_cons_of_mem _ hm)

lemma ruleValues_nodup (server : String) : ((ruleValues server).map Prod.fst).Nodup := by
  simp [ruleValues]

lemma claimed_eq_iff (server : String) (r : Rules) (k : ℕ) : claimed server r k = r ↔
    ∃ rule, r[RULE]? = some rule ∧ ∀ w ∈ (ruleValues server).take k, rule[w.1]? = some w.2 := by
  constructor
  · intro h
    have hget := getElem?_insert r RULE RULE
      (written (r[RULE]?.getD ∅) ((ruleValues server).take k))
    rw [if_pos rfl] at hget
    have hr : r[RULE]? = _ := (congrArg (·[RULE]?) h).symm.trans hget
    refine ⟨_, hr, fun w hw => getElem?_written ?_ hw _⟩
    exact (ruleValues_nodup server).sublist ((List.take_sublist k _).map Prod.fst)
  · rintro ⟨rule, hr, hw⟩
    refine Std.ExtTreeMap.ext_getElem? fun n => ?_
    rw [claimed, getElem?_insert, hr, Option.getD_some, written_same hw]
    split_ifs with hn
    · rw [← hn, hr]
    · rfl

/-- The comment is the fifth of the values. -/
lemma marked_written (server : String) (rule : Rule) (k : ℕ) :
    Marked (written rule ((ruleValues server).take k)) ↔ 5 ≤ k ∨ Marked rule := by
  have hm : (some (⟨REG_SZ, text MARK⟩ : Value)).bind Value.text = some MARK.toList := by decide
  by_cases h : 5 ≤ k
  · have hw : ("Comment", (⟨REG_SZ, text MARK⟩ : Value)) ∈ (ruleValues server).take k := by
      refine List.mem_take_iff_getElem.mpr ⟨4, by simp [ruleValues]; omega, rfl⟩
    have := getElem?_written ((ruleValues_nodup server).sublist
      ((List.take_sublist k _).map Prod.fst)) hw rule
    unfold Marked
    rw [this]
    exact iff_of_true hm (.inl h)
  · have hn : "Comment" ∉ ((ruleValues server).take k).map Prod.fst := by
      have hk : k < 5 := by omega
      interval_cases k <;> simp [ruleValues]
    unfold Marked
    rw [getElem?_written_of_notMem hn]
    exact ⟨.inr, fun h' => h'.resolve_left h⟩

lemma getElem?_claimed (server : String) (r : Rules) (k : ℕ) (name : String) :
    (claimed server r k)[name]? = if RULE = name then
      some (written (r[RULE]?.getD ∅) ((ruleValues server).take k)) else r[name]? :=
  getElem?_insert _ _ _ _

lemma mine_claimed_of_ne (server : String) (r : Rules) (k : ℕ) {name : String}
    (h : RULE ≠ name) : Mine (claimed server r k) name ↔ Mine r name := by
  unfold Mine
  rw [getElem?_claimed, if_neg h]

lemma not_marked_empty : ¬Marked ∅ := by decide

lemma mine_claimed (server : String) (r : Rules) (k : ℕ) :
    Mine (claimed server r k) RULE ↔ 5 ≤ k ∨ Mine r RULE := by
  unfold Mine
  rw [getElem?_claimed, if_pos rfl]
  simp only [Option.some.injEq, exists_eq_left', marked_written]
  refine or_congr_right ?_
  cases r[RULE]? with
  | none => simpa using not_marked_empty
  | some rule => simp

/-! ### A takeover that fails -/

/-- When a takeover that fails leaves the rules as they were: its first call is refused; the
values it wrote before one was refused were there already; or the canary did not come, and
neither this core's rule nor another marked one was there before. -/
def Harmless (server : String) (os : ℕ → Outcome) (r : Rules) : Prop :=
  match lead 8 os with
  | 0 | 8 => True
  | 7 => r[RULE]? = none ∧ ∀ name, ¬Mine r name
  | k + 1 => ∃ rule, r[RULE]? = some rule ∧
      ∀ w ∈ (ruleValues server).take k, rule[w.1]? = some w.2

/-- A sweep after a whole claim gives back the rules exactly where there was nothing of this
core's before. -/
lemma swept_claimed_iff (server : String) (r : Rules) :
    swept (claimed server r 6) = r ↔ r[RULE]? = none ∧ ∀ name, ¬Mine r name := by
  have hmine : Mine (claimed server r 6) RULE := (mine_claimed server r 6).mpr (.inl (by decide))
  constructor
  · intro h
    have hr : r[RULE]? = none := by
      rw [← congrArg (·[RULE]?) h]
      exact (getElem?_swept _ _).trans (if_pos hmine)
    refine ⟨hr, fun name hm => ?_⟩
    have hne : RULE ≠ name := fun he => by
      obtain ⟨rule, h', -⟩ := hm
      rw [← he, hr] at h'
      cases h'
    have hs := getElem?_swept (claimed server r 6) name
    rw [h, if_pos ((mine_claimed_of_ne server r 6 hne).mpr hm)] at hs
    obtain ⟨rule, h', -⟩ := hm
    rw [h'] at hs
    cases hs
  · rintro ⟨hr, hm⟩
    refine Std.ExtTreeMap.ext_getElem? fun name => ?_
    rw [getElem?_swept]
    by_cases hne : RULE = name
    · subst hne
      rw [if_pos hmine, hr]
    · rw [if_neg fun h => hm name ((mine_claimed_of_ne server r 6 hne).mp h), getElem?_claimed,
        if_neg hne]

/-- **When a takeover that fails leaves the machine as it was**, with the calls of its own
sweep accepted. -/
theorem takeOver_undone_iff (server : String) (os : ℕ → Outcome) (r : Rules)
    (hkill : ∀ n, os n ≠ .killed) (hsweep : ∀ n, 8 ≤ n → os n = .accepted) :
    (∀ err, (exec perform (takeOver server).run os r).value = some (.error err) →
      (exec perform (takeOver server).run os r).state = r) ↔ Harmless server os r := by
  obtain ⟨hcut, hwhole⟩ := takeOver_course server r os
  have hle := lead_le 7 os
  have h8 := lead_snoc 7 os
  unfold Harmless
  by_cases h7 : lead 7 os < 7
  · -- the claim was cut short
    obtain ⟨hstate, -, herr⟩ := hcut h7
    obtain ⟨err, hv⟩ := herr hkill
    rw [if_neg fun h => by omega] at h8
    rw [hv, hstate, h8]
    rcases hj : lead 7 os with _ | k
    · exact iff_of_true (fun _ _ => rfl) trivial
    · have hk : k < 6 := by omega
      interval_cases k <;>
        exact ⟨fun h => (claimed_eq_iff server r _).mp (h err rfl),
          fun h _ _ => (claimed_eq_iff server r _).mpr h⟩
  · have h7 : lead 7 os = 7 := by omega
    obtain ⟨hacc, -, href⟩ := hwhole h7
    cases ho : os 7 with
    | killed => exact absurd ho (hkill 7)
    | accepted =>
      rw [if_pos ⟨h7, ho⟩] at h8
      rw [h8, (hacc ho).2]
      exact iff_of_true nofun trivial
    | refused n =>
      have hna : ¬(lead 7 os = 7 ∧ os 7 = .accepted) := fun h => nomatch ho.symm.trans h.2
      have h8 : lead 8 os = 7 := by rw [h8, if_neg hna, h7]
      have hrel : after 8 os = always := funext fun k => hsweep (k + 8) (by omega)
      obtain ⟨hs, hv⟩ := href n ho
      rw [hrel, exec_always] at hs hv
      rw [h8, hs, hv]
      exact ⟨fun h => (swept_claimed_iff server r).mp (h _ rfl),
        fun h _ _ => (swept_claimed_iff server r).mpr h⟩

/-- A first value that is refused, where there was no rule, leaves an empty one. -/
theorem takeOver_undone_iff_refused :
    ¬(exec perform (takeOver "127.0.0.1").run (fun n => if n = 1 then .refused 4 else .accepted)
        ∅).state = ∅ := by
  have h := takeOver_undone_iff "127.0.0.1" (fun n => if n = 1 then .refused 4 else .accepted) ∅
    (fun n => by split_ifs <;> decide) (fun n hn => if_neg (by omega))
  have hh : ¬Harmless "127.0.0.1" (fun n => if n = 1 then .refused 4 else .accepted) ∅ := by
    unfold Harmless
    rw [show lead 8 (fun n => if n = 1 then .refused 4 else .accepted) = 1 from by decide]
    rintro ⟨rule, hr, -⟩
    simp at hr
  exact fun hs => hh (h.mp fun _ _ => hs)

/-- The mark is the fifth value: refuse it, and a rule that points every name here stays
behind, though the takeover reports that it failed. -/
theorem takeOver_left_behind :
    let e := exec perform (takeOver "127.0.0.1").run
      (fun n => if n = 5 then .refused 4 else .accepted) ∅
    e.value = some (.error (.registry "writing a value of the rule" 5)) ∧ e.state ≠ ∅ ∧
      e.state[RULE]?.bind (fun rule => rule["GenericDNSServers"]?)
        = some ⟨REG_SZ, text "127.0.0.1"⟩ := by
  decide +kernel

end Masqr.Names
