import Mathlib
import Masqr.Lib.Run
import Masqr.Transport.ControlStream

/-!
The tasks that serve the endpoint's streams, step by step and in any order.

A step of a task reads or changes one thing the tasks share. A rule that is broken takes two: the
reason is recorded, and then the connection is closed with its code.
-/

namespace Masqr.Transport

open Masqr.Lib

/-- The value at the front of what arrived, where a whole one has: the type a stream opens with. -/
def Http3.FrameReader.takeVarint (r : FrameReader) : Option (ℕ × FrameReader) :=
  match Varint.get r.pending with
  | none => none
  | some (value, used) => some (value, { r with pending := r.pending.drop used })

namespace Quic

open Http3

/-- The type of the endpoint's control stream. -/
def CONTROL : ℕ := 0x00

namespace Peer

/-- The first half of `fail`. -/
def record (p : Peer) (problem : H3Error) : Peer := { p with ended := some (.broke problem) }

/-- The first close decides; a later one does nothing. -/
def close (p : Peer) (closed : Closed) : Peer :=
  match p.closed with
  | none => { p with closed := some closed }
  | some _ => p

@[simp] lemma ended_close (p : Peer) (closed : Closed) : (p.close closed).ended = p.ended := by
  unfold close
  cases p.closed <;> rfl

@[simp] lemma controlSeen_close (p : Peer) (closed : Closed) :
    (p.close closed).controlSeen = p.controlSeen := by
  unfold close
  cases p.closed <;> rfl

@[simp] lemma controlSeen_act (p : Peer) (event : ControlEvent) :
    (p.act event).controlSeen = p.controlSeen := by
  unfold act
  cases event with
  | settings settings => dsimp only; split_ifs <;> rfl
  | goAway id => dsimp only; cases p.ended <;> rfl

end Peer

/-- Where a task stands with its stream: it looks for the type, or asks for more of it; it judges the
frames of the control stream, or asks for more of them; it has a rule to report, or has recorded it
and is about to close the connection; it is done, or reads to no end. -/
inductive Task
  | opening (r : FrameReader)
  | asking (r : FrameReader)
  | control (s : FrameReader × ControlStream)
  | listening (s : FrameReader × ControlStream)
  | failing (problem : H3Error)
  | closing (problem : H3Error)
  | done

/-- What a task does next with what it has. -/
def serveStream (p : Peer) : Task → Option (Peer × Task)
  | .opening r =>
    match r.takeVarint with
    | none => some (p, .asking r)
    | some (kind, r) =>
      if kind = CONTROL then
        if p.controlSeen then some (p, .failing .secondControl)
        else some ({ p with controlSeen := true }, .control (r, .default))
      -- nothing is acted on in a stream of QPACK, and any other is refused
      else some (p, .done)
  | .control s =>
    match control.next s with
    | (.error problem, _) => some (p, .failing problem)
    | (.ok none, s) => some (p, .listening s)
    | (.ok (some event), s) => some (event.elim p p.act, .control s)
  | .failing problem => some (p.record problem, .closing problem)
  | .closing problem => some (p.close (.broke problem.code problem.text), .done)
  | _ => none

/-- What the tasks share, and the task of each stream. -/
structure World where
  peer : Peer
  tasks : ℕ → Task

inductive Label
  | go (i : ℕ)
  | chunk (i : ℕ) (bytes : List UInt8)
  | finish (i : ℕ) (fin : Finish)
  | close

namespace World

def start : World := ⟨.new, fun _ => .opening .new⟩

/-- One step: a task goes on, or is given what it asks for, or something else closes the
connection. -/
def step (w : World) : Label → Option World
  | .go i => (serveStream w.peer (w.tasks i)).map fun next =>
    ⟨next.1, Function.update w.tasks i next.2⟩
  | .chunk i bytes =>
    match w.tasks i with
    | .asking r => some { w with tasks := Function.update w.tasks i (.opening (r.extend bytes)) }
    | .listening s =>
      some { w with tasks := Function.update w.tasks i (.control (control.extend s bytes)) }
    | _ => none
  | .finish i fin =>
    match w.tasks i, fin.result with
    | .asking _, some _ => some { w with tasks := Function.update w.tasks i .done }
    | .listening _, some (.error problem) =>
      some { w with tasks := Function.update w.tasks i (.failing problem) }
    | .listening _, some (.ok ()) => some { w with tasks := Function.update w.tasks i .done }
    | _, _ => none
  | .close => some { w with peer := w.peer.close .otherwise }

end World

/-! ### What a step does to the reason -/

/-- A task has recorded its reason and has not closed the connection yet. -/
def Halfway (w : World) : Prop := ∃ i problem, w.tasks i = .closing problem

/-- A connection closed for a rule is reported as closed for that rule. -/
def Agrees (w : World) : Prop := ∀ code reason, w.peer.closed = some (.broke code reason) →
  ¬Halfway w → ∃ problem, w.peer.ended = some (.broke problem) ∧ problem.code = code

/-- No rule is recorded over another. -/
def Alone (w : World) (label : Label) : Prop := ∀ i problem, label = .go i →
  w.tasks i = .failing problem → ∀ earlier, w.peer.ended = some (.broke earlier) →
    problem = earlier

/-- No broken rule is recorded, and the connection is closed for none. -/
structure Quiet (p p' : Peer) : Prop where
  ended : ∀ problem, p'.ended = some (.broke problem) ↔ p.ended = some (.broke problem)
  closed : ∀ code reason, p'.closed = some (.broke code reason) →
    p.closed = some (.broke code reason)

namespace Quiet

lemma refl (p : Peer) : Quiet p p := ⟨fun _ => Iff.rfl, fun _ _ h => h⟩

lemma act (p : Peer) (event : ControlEvent) : Quiet p (p.act event) := by
  cases event with
  | settings settings =>
    unfold Peer.act
    split_ifs
    · exact ⟨fun _ => Iff.rfl, fun _ _ h => h⟩
    · exact refl p
  | goAway id =>
    unfold Peer.act
    cases hended : p.ended with
    | none => exact ⟨fun problem => by simp [hended], fun _ _ h => h⟩
    | some ended => exact refl p

lemma close_otherwise (p : Peer) : Quiet p (p.close .otherwise) := by
  unfold Peer.close
  cases hclosed : p.closed with
  | none => exact ⟨fun _ => Iff.rfl, fun _ _ h => by cases h⟩
  | some closed => exact refl p

end Quiet

/-- **What a task does next**: it records its reason, or closes the connection for the reason it
recorded, or neither. -/
lemma serveStream_cases {p p' : Peer} {task task' : Task}
    (h : serveStream p task = some (p', task')) :
    (∃ problem, task = .failing problem ∧ p' = p.record problem ∧ task' = .closing problem) ∨
    (∃ problem, task = .closing problem ∧
      p' = p.close (.broke problem.code problem.text) ∧ task' = .done) ∨
    ((∀ problem, task ≠ .failing problem) ∧ Quiet p p' ∧ ∀ problem, task' ≠ .closing problem) := by
  cases task with
  | opening r =>
    refine .inr (.inr ⟨fun _ => Task.noConfusion, ?_⟩)
    rw [serveStream] at h
    split at h
    · cases h
      exact ⟨.refl p, fun _ => Task.noConfusion⟩
    · split_ifs at h
      · cases h
        exact ⟨.refl p, fun _ => Task.noConfusion⟩
      · cases h
        exact ⟨⟨fun _ => Iff.rfl, fun _ _ hc => hc⟩, fun _ => Task.noConfusion⟩
      · cases h
        exact ⟨.refl p, fun _ => Task.noConfusion⟩
  | control s =>
    refine .inr (.inr ⟨fun _ => Task.noConfusion, ?_⟩)
    rw [serveStream] at h
    split at h
    · cases h
      exact ⟨.refl p, fun _ => Task.noConfusion⟩
    · cases h
      exact ⟨.refl p, fun _ => Task.noConfusion⟩
    · next event s' _ =>
      cases h
      refine ⟨?_, fun _ => Task.noConfusion⟩
      cases event with
      | none => exact .refl p
      | some event => exact .act p event
  | failing problem =>
    cases h
    exact .inl ⟨problem, rfl, rfl, rfl⟩
  | closing problem =>
    cases h
    exact .inr (.inl ⟨problem, rfl, rfl, rfl⟩)
  | asking r => cases h
  | listening s => cases h
  | done => cases h

/-- What one task of many is after a task was replaced: the replacement, or what it was. -/
lemma of_update {P : Task → Prop} {tasks : ℕ → Task} {i j : ℕ} {task : Task}
    (h : P (Function.update tasks i task j)) : j = i ∧ P task ∨ j ≠ i ∧ P (tasks j) := by
  by_cases hji : j = i
  · subst hji
    rw [Function.update_self] at h
    exact .inl ⟨rfl, h⟩
  · rw [Function.update_of_ne hji] at h
    exact .inr ⟨hji, h⟩

namespace World

variable {w w' : World} {label : Label}

lemma step_go {i : ℕ} (h : w.step (.go i) = some w') : ∃ peer task,
    serveStream w.peer (w.tasks i) = some (peer, task) ∧
      w' = ⟨peer, Function.update w.tasks i task⟩ := by
  rw [step, Option.map_eq_some_iff] at h
  obtain ⟨⟨peer, task⟩, hserve, rfl⟩ := h
  exact ⟨peer, task, hserve, rfl⟩

/-- What a stream brings, or another close, leaves the reason alone. -/
lemma step_given (hlabel : ∀ i, label ≠ .go i) (h : w.step label = some w') :
    Quiet w.peer w'.peer ∧ ∀ i problem, w'.tasks i = .closing problem →
      w.tasks i = .closing problem := by
  have hkept : ∀ i task, (∀ problem, task ≠ .closing problem) → ∀ j problem,
      Function.update w.tasks i task j = .closing problem → w.tasks j = .closing problem := by
    intro i task hopen j problem hj
    rcases of_update (P := (· = .closing problem)) hj with ⟨-, htask⟩ | ⟨-, hj⟩
    · exact absurd htask (hopen problem)
    · exact hj
  cases label with
  | go i => exact absurd rfl (hlabel i)
  | chunk i bytes =>
    rw [step] at h
    split at h
    · cases h
      exact ⟨.refl _, hkept i _ fun _ => Task.noConfusion⟩
    · cases h
      exact ⟨.refl _, hkept i _ fun _ => Task.noConfusion⟩
    · cases h
  | finish i fin =>
    rw [step] at h
    split at h
    · cases h
      exact ⟨.refl _, hkept i _ fun _ => Task.noConfusion⟩
    · cases h
      exact ⟨.refl _, hkept i _ fun _ => Task.noConfusion⟩
    · cases h
      exact ⟨.refl _, hkept i _ fun _ => Task.noConfusion⟩
    · cases h
  | close =>
    cases h
    exact ⟨.close_otherwise _, fun _ _ hj => hj⟩

/-- **A step keeps the rule that was recorded exactly where it does not record another.** -/
lemma kept_iff (h : w.step label = some w') :
    (∀ earlier, w.peer.ended = some (.broke earlier) → w'.peer.ended = some (.broke earlier)) ↔
      Alone w label := by
  by_cases hlabel : ∃ i, label = .go i
  · obtain ⟨i, rfl⟩ := hlabel
    obtain ⟨peer, task, hserve, rfl⟩ := step_go h
    rcases serveStream_cases hserve with ⟨problem, htask, rfl, -⟩ | ⟨problem, htask, rfl, -⟩ |
      ⟨hother, hquiet, -⟩
    · constructor
      · intro hkept j problem' hj hfails earlier hended
        cases hj
        rw [htask] at hfails
        cases hfails
        cases hkept earlier hended
        rfl
      · intro halone earlier hended
        rw [halone i problem rfl htask earlier hended]
        rfl
    · refine iff_of_true (fun earlier hended => ?_) fun j problem' hj hfails => ?_
      · rwa [Peer.ended_close]
      · cases hj
        rw [htask] at hfails
        cases hfails
    · refine iff_of_true (fun earlier hended => (hquiet.ended earlier).2 hended)
        fun j problem' hj hfails => ?_
      cases hj
      exact absurd hfails (hother problem')
  · have hgiven := step_given (fun i hi => hlabel ⟨i, hi⟩) h
    refine iff_of_true (fun earlier hended => (hgiven.1.ended earlier).2 hended) ?_
    exact fun i _ hi => absurd ⟨i, hi⟩ hlabel

/-- Every reason that is recorded is the one recorded, and the connection is closed for none other. -/
structure One (w : World) : Prop where
  closing : ∀ i problem, w.tasks i = .closing problem → w.peer.ended = some (.broke problem)
  closed : ∀ code reason, w.peer.closed = some (.broke code reason) →
    ∃ problem, w.peer.ended = some (.broke problem) ∧ problem.code = code

lemma One.quiet (hone : One w) (hquiet : Quiet w.peer w'.peer)
    (htasks : ∀ i problem, w'.tasks i = .closing problem → w.tasks i = .closing problem) :
    One w' where
  closing i problem hi := (hquiet.ended problem).2 (hone.closing i problem (htasks i problem hi))
  closed code reason hclosed := by
    obtain ⟨problem, hended, hcode⟩ := hone.closed code reason (hquiet.closed code reason hclosed)
    exact ⟨problem, (hquiet.ended problem).2 hended, hcode⟩

lemma One.step (hone : One w) (halone : Alone w label) (h : w.step label = some w') : One w' := by
  have hkept := (kept_iff h).2 halone
  by_cases hlabel : ∃ i, label = .go i
  · obtain ⟨i, rfl⟩ := hlabel
    obtain ⟨peer, task, hserve, rfl⟩ := step_go h
    have hupdate : ∀ j problem, Function.update w.tasks i task j = .closing problem →
        j = i ∧ task = .closing problem ∨ j ≠ i ∧ w.tasks j = .closing problem :=
      fun j problem => of_update (P := (· = .closing problem))
    rcases serveStream_cases hserve with ⟨problem, htask, rfl, rfl⟩ | ⟨problem, htask, rfl, rfl⟩ |
      ⟨-, hquiet, hopen⟩
    · -- whatever was recorded before is this very rule
      refine ⟨fun j problem' hj => ?_, fun code reason hclosed => ?_⟩
      · rcases hupdate j problem' hj with ⟨-, htask'⟩ | ⟨-, hj⟩
        · cases htask'
          rfl
        · exact hkept problem' (hone.closing j problem' hj)
      · obtain ⟨earlier, hended, hcode⟩ := hone.closed code reason hclosed
        exact ⟨earlier, hkept earlier hended, hcode⟩
    · have hended := hone.closing i problem htask
      refine ⟨fun j problem' hj => ?_, fun code reason hclosed => ?_⟩
      · rcases hupdate j problem' hj with ⟨-, htask'⟩ | ⟨-, hj⟩
        · cases htask'
        · exact hkept problem' (hone.closing j problem' hj)
      · cases hbefore : w.peer.closed with
        | none =>
          simp only [Peer.close, hbefore] at hclosed
          cases hclosed
          exact ⟨problem, hkept problem hended, rfl⟩
        | some closed =>
          simp only [Peer.close, hbefore] at hclosed
          obtain ⟨earlier, hended', hcode⟩ := hone.closed code reason (hbefore.trans hclosed)
          exact ⟨earlier, hkept earlier hended', hcode⟩
    · refine hone.quiet hquiet fun j problem hj => ?_
      rcases hupdate j problem hj with ⟨-, htask⟩ | ⟨-, hj⟩
      · exact absurd htask (hopen problem)
      · exact hj
  · obtain ⟨hquiet, htasks⟩ := step_given (fun i hi => hlabel ⟨i, hi⟩) h
    exact hone.quiet hquiet htasks

lemma one_start : One start :=
  ⟨fun _ _ h => Task.noConfusion h, fun _ _ h => by cases h⟩

end World

open World

/-- The reason reported, over a whole run: wherever a broken rule closed the connection and no task
is halfway, it is a rule with that code; and once a broken rule is recorded, it stays. -/
structure Reported (labels : List Label) : Prop where
  agrees : ∀ before, before <+: labels → ∀ u, run step start before = some u → Agrees u
  kept : ∀ before after, before ++ after <+: labels → ∀ u v,
    run step start before = some u → run step u after = some v → ∀ problem,
      u.peer.ended = some (.broke problem) → v.peer.ended = some (.broke problem)

/-- **When the reason reported is the reason the connection was closed for**: in a run in which no
rule is recorded over another. Only recording replaces what was recorded, so there is no other way
to keep it. -/
theorem reported_iff {labels : List Label} {t : World} (h : run step start labels = some t) :
    Reported labels ↔ Meets step Alone start labels := by
  constructor
  · intro hreported
    refine Meets.iff_took.2 fun label u htook => ?_
    obtain ⟨before, after, rfl, hbefore⟩ := htook
    obtain ⟨u', hu, hrest⟩ := (run_append step).1 h
    obtain rfl : u' = u := Option.some.inj (hu.symm.trans hbefore)
    obtain ⟨v, hstep, -⟩ := (run_cons step).1 hrest
    have hprefix : before ++ [label] <+: before ++ label :: after := by
      rw [List.prefix_append_right_inj]
      exact List.prefix_append [label] after
    have hone : run step u' [label] = some v := (run_cons step).2 ⟨v, hstep, rfl⟩
    exact (kept_iff hstep).1 (hreported.kept before [label] hprefix u' v hbefore hone)
  · intro halone
    rw [Meets.iff_took] at halone
    refine ⟨fun before hprefix u hrun => ?_, fun before after hprefix u v hu hv problem => ?_⟩
    · obtain ⟨rest, rfl⟩ := hprefix
      have hbefore : Meets step Alone start before :=
        Meets.iff_took.2 fun label u' htook => halone label u' (htook.append rest)
      have hone := hbefore.run_inv (fun _ _ _ ha hone hstep => hone.step ha hstep) one_start hrun
      exact fun code reason hclosed _ => hone.closed code reason hclosed
    · obtain ⟨rest, rfl⟩ := hprefix
      have hafter : Meets step Alone u after := by
        refine Meets.iff_took.2 fun label u' htook => ?_
        obtain ⟨b, a, rfl, hb⟩ := htook
        refine halone label u' ⟨before ++ b, a ++ rest, by simp, ?_⟩
        exact (run_append step).2 ⟨u, hu, hb⟩
      exact fun hended => hafter.run_inv (I := fun w => w.peer.ended = some (.broke problem))
        (fun _ _ _ ha hw hstep => (kept_iff hstep).2 ha problem hw) hended hv

/-! ### Which rules can meet -/

/-- The task has the control stream, or a rule to report that is not the second control stream. -/
def Task.Owns : Task → Prop
  | control _ | listening _ => True
  | failing problem | closing problem => problem ≠ .secondControl
  | _ => False

namespace World

/-- One task at the most has the control stream, and what it reports it reports last. -/
structure Owned (w : World) : Prop where
  unique : ∀ i j, (w.tasks i).Owns → (w.tasks j).Owns → i = j
  seen : ∀ i, (w.tasks i).Owns → w.peer.controlSeen = true
  recorded : ∀ problem, w.peer.ended = some (.broke problem) → problem ≠ .secondControl →
    w.peer.controlSeen = true ∧ ∀ i, (w.tasks i).Owns → w.tasks i = .closing problem

lemma owned_start : Owned start :=
  ⟨fun _ _ h => False.elim h, fun _ h => False.elim h, fun _ h => by cases h⟩

variable {w : World}

/-- A task that moves on and owns no more than before, nothing being recorded. -/
lemma Owned.update (hown : Owned w) {peer : Peer}
    (hended : ∀ problem, peer.ended = some (.broke problem) →
      w.peer.ended = some (.broke problem))
    (hseen : peer.controlSeen = w.peer.controlSeen) {i : ℕ} {task : Task}
    (hbefore : task.Owns → (w.tasks i).Owns ∧ ∀ problem, w.tasks i ≠ .closing problem) :
    Owned ⟨peer, Function.update w.tasks i task⟩ := by
  have howns : ∀ j, (Function.update w.tasks i task j).Owns → (w.tasks j).Owns := fun j hj => by
    rcases of_update hj with ⟨rfl, htask⟩ | ⟨-, hj⟩
    · exact (hbefore htask).1
    · exact hj
  refine ⟨fun j k hj hk => hown.unique j k (howns j hj) (howns k hk),
    fun j hj => hseen.trans (hown.seen j (howns j hj)), fun problem hnow hother => ?_⟩
  obtain ⟨hcontrol, hclosing⟩ := hown.recorded problem (hended problem hnow) hother
  refine ⟨hseen.trans hcontrol, fun j hj => ?_⟩
  have hsame := hclosing j (howns j hj)
  rcases of_update hj with ⟨rfl, htask⟩ | ⟨hji, -⟩
  · exact absurd hsame ((hbefore htask).2 problem)
  · change Function.update w.tasks i task j = _
    rwa [Function.update_of_ne hji]

/-- The control stream is taken by the first task that asks. -/
lemma Owned.take (hown : Owned w) (hfree : w.peer.controlSeen = false) (i : ℕ)
    (s : FrameReader × ControlStream) :
    Owned ⟨{ w.peer with controlSeen := true }, Function.update w.tasks i (.control s)⟩ := by
  have hnone : ∀ j, ¬(w.tasks j).Owns := fun j hj => by
    rw [hown.seen j hj] at hfree
    cases hfree
  have hself : ∀ j, (Function.update w.tasks i (.control s) j).Owns → j = i := fun j hj => by
    rcases of_update hj with ⟨hji, -⟩ | ⟨-, hj⟩
    · exact hji
    · exact absurd hj (hnone j)
  refine ⟨fun j k hj hk => (hself j hj).trans (hself k hk).symm, fun _ _ => rfl,
    fun problem hended hother => ?_⟩
  rw [(hown.recorded problem hended hother).1] at hfree
  cases hfree

/-- Whoever owns the control stream reports last. -/
lemma Owned.record (hown : Owned w) {i : ℕ} {problem : H3Error}
    (htask : w.tasks i = .failing problem) :
    Owned ⟨w.peer.record problem, Function.update w.tasks i (.closing problem)⟩ := by
  have howns : ∀ j, (Function.update w.tasks i (.closing problem) j).Owns → (w.tasks j).Owns :=
    fun j hj => by
      rcases of_update hj with ⟨rfl, hreports⟩ | ⟨-, hj⟩
      · rw [htask]
        exact hreports
      · exact hj
  refine ⟨fun j k hj hk => hown.unique j k (howns j hj) (howns k hk),
    fun j hj => hown.seen j (howns j hj), fun problem' hended hother => ?_⟩
  cases hended
  have howner : (w.tasks i).Owns := by
    rw [htask]
    exact hother
  refine ⟨hown.seen i howner, fun j hj => ?_⟩
  obtain rfl := hown.unique j i (howns j hj) howner
  exact Function.update_self ..

lemma Owned.step {w' : World} {label : Label} (hown : Owned w) (h : w.step label = some w') :
    Owned w' := by
  cases label with
  | go i =>
    obtain ⟨peer, task, hserve, rfl⟩ := step_go h
    cases htask : w.tasks i with
    | opening r =>
      rw [htask, serveStream] at hserve
      split at hserve
      · cases hserve
        exact hown.update (fun _ h => h) rfl fun howns => False.elim howns
      · split_ifs at hserve with hkind hseen
        · cases hserve
          exact hown.update (fun _ h => h) rfl fun howns => absurd rfl howns
        · cases hserve
          exact hown.take (Bool.eq_false_iff.2 hseen) i _
        · cases hserve
          exact hown.update (fun _ h => h) rfl fun howns => False.elim howns
    | control s =>
      have hbefore : (w.tasks i).Owns ∧ ∀ problem, w.tasks i ≠ .closing problem := by
        rw [htask]
        exact ⟨trivial, fun _ => Task.noConfusion⟩
      rw [htask, serveStream] at hserve
      split at hserve
      · cases hserve
        exact hown.update (fun _ h => h) rfl fun _ => hbefore
      · cases hserve
        exact hown.update (fun _ h => h) rfl fun _ => hbefore
      · next event s' _ =>
        cases hserve
        refine hown.update (fun problem hended => ?_) ?_ fun _ => hbefore
        · cases event with
          | none => exact hended
          | some event => exact ((Quiet.act w.peer event).ended problem).1 hended
        · cases event with
          | none => rfl
          | some event => exact w.peer.controlSeen_act event
    | failing problem =>
      rw [htask] at hserve
      cases hserve
      exact hown.record htask
    | closing problem =>
      rw [htask] at hserve
      cases hserve
      refine hown.update (fun problem' hended => ?_) (by simp) fun howns => False.elim howns
      rwa [Peer.ended_close] at hended
    | asking r =>
      rw [htask] at hserve
      cases hserve
    | listening s =>
      rw [htask] at hserve
      cases hserve
    | done =>
      rw [htask] at hserve
      cases hserve
  | chunk i bytes =>
    rw [World.step] at h
    split at h
    · cases h
      exact hown.update (fun _ h => h) rfl fun howns => False.elim howns
    · next s htask =>
      cases h
      refine hown.update (fun _ h => h) rfl fun _ => ?_
      rw [htask]
      exact ⟨trivial, fun _ => Task.noConfusion⟩
    · cases h
  | finish i fin =>
    rw [World.step] at h
    split at h
    · cases h
      exact hown.update (fun _ h => h) rfl fun howns => False.elim howns
    · next s problem htask _ =>
      cases h
      refine hown.update (fun _ h => h) rfl fun _ => ?_
      rw [htask]
      exact ⟨trivial, fun _ => Task.noConfusion⟩
    · cases h
      exact hown.update (fun _ h => h) rfl fun howns => False.elim howns
    · cases h
  | close =>
    cases h
    have hseen := w.peer.controlSeen_close .otherwise
    refine ⟨hown.unique, fun i hi => hseen.trans (hown.seen i hi), fun problem hended hother => ?_⟩
    rw [Peer.ended_close] at hended
    obtain ⟨hcontrol, hclosing⟩ := hown.recorded problem hended hother
    exact ⟨hseen.trans hcontrol, hclosing⟩

end World

/-- **Two rules meet only over a second control stream**: in every state a run comes to, a rule about
to be recorded over another is that one, or the other is. -/
theorem second_control_of_two {labels : List Label} {w : World}
    (h : run step start labels = some w) {i : ℕ} {problem earlier : H3Error}
    (hfails : w.tasks i = .failing problem) (hended : w.peer.ended = some (.broke earlier)) :
    problem = .secondControl ∨ earlier = .secondControl := by
  have hown := run_inv (fun _ _ _ hown hstep => Owned.step hown hstep) owned_start h
  by_contra hneither
  rw [not_or] at hneither
  have howns : (w.tasks i).Owns := by
    rw [hfails]
    exact hneither.1
  have hclosing := (hown.recorded earlier hended hneither.2).2 i howns
  rw [hfails] at hclosing
  cases hclosing

/-- A second control stream is refused while frames of the first wait to be judged: SETTINGS, and
DATA, which has no place there. -/
def twoControls : List Label :=
  [.go 0, .chunk 0 [0, 4, 0, 0, 0], .go 0, .go 1, .chunk 1 [0], .go 1, .go 1, .go 1,
    .go 0, .go 0, .go 0, .go 0]

/-- The connection is closed for the second control stream, and reported as closed for the DATA. -/
theorem reported_twoControls :
    ¬∀ labels t, run step start labels = some t → Reported labels := by
  intro hclaim
  obtain ⟨t, hrun, hended, hclosed, htasks⟩ : ∃ t, run step start twoControls = some t ∧
      t.peer.ended = some (.broke (.unexpected DATA "control")) ∧
      t.peer.closed = some (.broke Code.STREAM_CREATION_ERROR H3Error.secondControl.text) ∧
      ∀ i problem, t.tasks i ≠ .closing problem := by
    refine ⟨_, rfl, rfl, rfl, fun i problem => ?_⟩
    rcases i with _ | _ | i
    · change Task.done ≠ _
      exact Task.noConfusion
    · change Task.done ≠ _
      exact Task.noConfusion
    · change Task.opening .new ≠ _
      exact Task.noConfusion
  obtain ⟨problem, hbroke, hcode⟩ := (hclaim twoControls t hrun).agrees _ List.prefix_rfl t hrun _ _
    hclosed fun ⟨i, problem, hi⟩ => htasks i problem hi
  rw [hended] at hbroke
  cases hbroke
  exact absurd hcode (by decide)

/-- One control stream and one broken rule. -/
theorem reported_iff_one :
    Reported [.go 0, .chunk 0 [0, 4, 0, 0, 0], .go 0, .go 0, .go 0, .go 0, .close, .go 0] := by
  obtain ⟨t, hrun⟩ : ∃ t, run step start
      [.go 0, .chunk 0 [0, 4, 0, 0, 0], .go 0, .go 0, .go 0, .go 0, .close, .go 0] = some t :=
    ⟨_, rfl⟩
  have hnone : ∀ {w : World} {label : Label}, w.peer.ended = none → Alone w label := by
    intro w label hended i problem _ _ earlier hbroke
    rw [hended] at hbroke
    cases hbroke
  refine (reported_iff hrun).2 (.cons rfl (hnone rfl) (.cons rfl (hnone rfl) (.cons rfl (hnone rfl)
    (.cons rfl (hnone rfl) (.cons rfl (hnone rfl) (.cons rfl (hnone rfl) (.cons rfl ?_
    (.cons rfl ?_ trivial))))))))
  · exact fun i problem hi => Label.noConfusion hi
  · intro i problem hi hfails
    cases hi
    cases hfails

end Quic

end Masqr.Transport
