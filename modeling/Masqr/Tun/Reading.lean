import Masqr.Tun.Session

/-!
The thread that reads the adapter, on its own: every packet goes to the queue, in order, no packet
is slept over, and once it is asked to stop it leaves.
-/

namespace Masqr.Tun.Session

open Masqr.Lib Masqr.Queue

/-! ### The reader's side -/

/-- What the steps of the reader go by, and what they leave behind. -/
structure Side where
  reader : ReaderAt
  ring : List Packet
  readable : Bool
  quit : Bool
  queueClosed : Bool
  arrived : List Packet
  pushed : List Packet
  unpushed : List Packet

namespace State

def side (s : State) : Side :=
  ⟨s.reader, s.ring, s.readable, s.quit, s.queueClosed, s.arrived, s.pushed, s.unpushed⟩

variable (s : State)

@[simp] lemma ask_side (c : Call) : (s.ask c).side = s.side := rfl

@[simp] lemma dropSession_side : s.dropSession.side = s.side := by
  unfold dropSession close
  split_ifs <;> rfl

@[simp] lemma dropWriter_side : s.dropWriter.side = s.side := by
  unfold dropWriter
  split_ifs
  · rfl
  · exact dropSession_side _

@[simp] lemma dropReader_side : s.dropReader.side = s.side := by
  unfold dropReader
  split_ifs
  · rfl
  · exact dropSession_side _

@[simp] lemma dropCore_side : s.dropCore.side = s.side := by
  unfold dropCore
  split_ifs <;> rfl

@[simp] lemma dropLine_side : s.dropLine.side = s.side := by
  unfold dropLine
  split_ifs
  · exact dropCore_side _
  · rfl

@[simp] lemma dropMain_side : s.dropMain.side = s.side := dropCore_side _
@[simp] lemma dropTask_side : s.dropTask.side = s.side := dropCore_side _

end State

/-- What a step of the reader does, branch by branch. -/
inductive Turn (w : Side) : Side → Prop
  | ask : w.reader = .asking → Turn w { w with reader := .inside }
  | empty : w.reader = .inside → w.ring = [] → Turn w { w with reader := .refused }
  | take {packet : Packet} {ring : List Packet} : w.reader = .inside → w.ring = packet :: ring →
      Turn w { w with reader := .copying packet, ring := ring }
  | release {packet : Packet} : w.reader = .copying packet →
      Turn w { w with reader := .handing packet }
  | wait : w.reader = .refused → Turn w { w with reader := .waiting }
  | wake : w.reader = .waiting → w.readable = true →
      Turn w { w with reader := .asking, readable := false }
  | quit : w.reader = .waiting → w.readable = false → w.quit = true →
      Turn w { w with reader := .leaving }
  | refuse {packet : Packet} : w.reader = .handing packet → w.queueClosed = true →
      Turn w { w with reader := .leaving, unpushed := [packet] }
  | push {packet : Packet} : w.reader = .handing packet → w.queueClosed = false →
      Turn w { w with reader := .asking, pushed := w.pushed ++ [packet] }
  | close : w.reader = .leaving → Turn w { w with reader := .dropping, queueClosed := true }
  | drop : w.reader = .dropping → Turn w { w with reader := .telling }
  | tell : w.reader = .telling → Turn w { w with reader := .gone }
  | failReceive : w.reader = .inside → Turn w { w with reader := .leaving }
  | failWait : w.reader = .waiting → Turn w { w with reader := .leaving }
  | panicPush {packet : Packet} : w.reader = .handing packet →
      Turn w { w with reader := .gone, unpushed := [packet] }
  | panicClose : w.reader = .leaving → Turn w { w with reader := .gone }

/-- The reader elsewhere, once its handle is dropped. -/
lemma State.dropReader_at (s : State) (at' : ReaderAt) (left : Left) :
    { s.dropReader with reader := at', left := left }.side = { s.side with reader := at' } := by
  rw [← s.dropReader_side]
  rfl

lemma turn_of_readerGoes {s s' : State} (hs : readerGoes s = some s') : Turn s.side s'.side := by
  unfold readerGoes at hs
  cases hr : s.reader with
  | asking =>
    simp only [hr] at hs
    cases hs
    exact .ask hr
  | inside =>
    simp only [hr] at hs
    split at hs
    · next hring =>
      cases hs
      exact .empty hr hring
    · next hring =>
      cases hs
      exact .take hr hring
  | copying packet =>
    simp only [hr] at hs
    cases hs
    exact .release hr
  | refused =>
    simp only [hr] at hs
    cases hs
    exact .wait hr
  | waiting =>
    simp only [hr] at hs
    split_ifs at hs with hreadable hquit
    · cases hs
      exact .wake hr hreadable
    · cases hs
      exact .quit hr (Bool.eq_false_of_not_eq_true hreadable) hquit
  | handing packet =>
    simp only [hr] at hs
    split_ifs at hs with hclosed
    · cases hs
      exact .refuse hr hclosed
    · cases hs
      exact .push hr (Bool.eq_false_of_not_eq_true hclosed)
  | leaving =>
    simp only [hr] at hs
    cases hs
    exact .close hr
  | dropping =>
    simp only [hr] at hs
    cases hs
    have hside := s.dropReader_at .telling s.dropReader.left
    exact hside ▸ .drop hr
  | telling =>
    simp only [hr] at hs
    cases hs
    exact .tell hr
  | gone =>
    simp only [hr] at hs
    cases hs

lemma turn_of_readerFails {s s' : State} (hs : readerFails s = some s') : Turn s.side s'.side := by
  unfold readerFails at hs
  split at hs
  · next hr =>
    cases hs
    exact .failReceive hr
  · next hr =>
    cases hs
    exact .failWait hr
  · cases hs

lemma turn_of_readerPanics {s s' : State} (hs : readerPanics s = some s') :
    Turn s.side s'.side := by
  unfold readerPanics at hs
  split at hs
  · next packet hr =>
    cases hs
    have hside : { s.dropReader with
        reader := .gone, left := .dropped, unpushed := [packet] }.side =
        { s.side with reader := .gone, unpushed := [packet] } := by
      rw [← s.dropReader_side]
      rfl
    rw [hside]
    exact .panicPush hr
  · next hr =>
    cases hs
    rw [s.dropReader_at .gone .dropped]
    exact .panicClose hr
  · cases hs

/-- The main task leaves the reader's side alone but for asking it to stop. -/
lemma mainGoes_side {s s' : State} (hs : mainGoes s = some s') :
    s'.side = s.side ∨ s'.side = { s.side with quit := true } := by
  unfold mainGoes at hs
  cases hm : s.main with
  | cancelling =>
    simp only [hm] at hs
    split at hs
    · cases hs
      exact .inl s.dropLine_side
    · cases hs
  | asking =>
    simp only [hm] at hs
    cases hs
    exact .inr rfl
  | expecting =>
    simp only [hm] at hs
    split at hs
    · cases hs
    · cases hs
      exact .inl rfl
    · cases hs
      exact .inl rfl
  | closing =>
    simp only [hm] at hs
    split at hs <;> cases hs <;> exact .inl rfl
  | dropping =>
    simp only [hm] at hs
    cases hs
    exact .inl s.dropWriter_side
  | releasing =>
    simp only [hm] at hs
    cases hs
    exact .inl s.dropMain_side
  | _ =>
    simp only [hm] at hs
    cases hs
    try exact .inl rfl

def Label.ofReader : Label → Bool
  | .reader | .readerFails | .readerPanics => true
  | _ => false

def Label.isArrival : Label → Bool
  | .arrive _ => true
  | _ => false

/-- What a step does to the reader's side: it is a step of the reader, or it brings a packet, or the
wish that the reader stop, or nothing. -/
inductive Beside (w : Side) : Label → Side → Prop
  | turn {label : Label} {w' : Side} : label.ofReader = true → label.isArrival = false →
      Turn w w' → Beside w label w'
  | arrive (packet : Packet) : Beside w (.arrive packet)
      { w with ring := w.ring ++ [packet], arrived := w.arrived ++ [packet], readable := true }
  | asked {label : Label} : label.ofReader = false → label.isArrival = false →
      Beside w label { w with quit := true }
  | nothing {label : Label} : label.ofReader = false → label.isArrival = false → Beside w label w

lemma beside_of_step {s s' : State} {label : Label} (hs : step s label = some s') :
    Beside s.side label s'.side := by
  unfold step at hs
  split at hs
  · cases hs
  · unfold act at hs
    cases label with
    | arrive packet =>
      cases hs
      exact .arrive packet
    | reader => exact .turn rfl rfl (turn_of_readerGoes hs)
    | readerFails => exact .turn rfl rfl (turn_of_readerFails hs)
    | readerPanics => exact .turn rfl rfl (turn_of_readerPanics hs)
    | main =>
      obtain hside | hside := mainGoes_side hs
      · rw [hside]
        exact .nothing rfl rfl
      · rw [hside]
        exact .asked rfl rfl
    | dropped =>
      simp only at hs
      split at hs
      · cases hs
        rw [s.dropTask_side]
        exact .nothing rfl rfl
      · cases hs
    | _ =>
      simp only at hs
      split at hs <;> cases hs; exact .nothing rfl rfl

/-! ### The reader leaves -/

/-- The steps before the reader, where `ahead` of them go to packets and to an event already set. -/
def ReaderAt.work (ahead : ℕ) : ReaderAt → ℕ
  | .copying _ => 9 + ahead
  | .handing _ => 8 + ahead
  | .asking => 7 + ahead
  | .inside => 6 + ahead
  | .refused => 5 + ahead
  | .waiting => 4 + ahead
  | .leaving => 3
  | .dropping => 2
  | .telling => 1
  | .gone => 0

/-- The steps the reader has before it where nothing more arrives and it is asked to stop: four for
each packet in the ring, and four for a wait that an event already set cuts short. -/
def Side.work (w : Side) : ℕ := w.reader.work (4 * w.ring.length + 4 * w.readable.toNat)

def State.work (s : State) : ℕ := s.side.work

lemma ReaderAt.work_mono (r : ReaderAt) {m n : ℕ} (h : m ≤ n) : r.work m ≤ r.work n := by
  cases r <;> simp [ReaderAt.work, h]

lemma ReaderAt.work_add (r : ReaderAt) (m n : ℕ) : r.work (m + n) ≤ r.work m + n := by
  cases r <;> simp [ReaderAt.work] <;> omega

lemma Turn.work {w w' : Side} (h : Turn w w') : w'.work < w.work := by
  cases h <;> simp_all [Side.work, ReaderAt.work] <;> omega

/-- Each step of the reader is one less before it, and each packet is eight more at most. -/
lemma Beside.work {w w' : Side} {label : Label} (h : Beside w label w') :
    w'.work + label.ofReader.toNat ≤ w.work + 8 * label.isArrival.toNat := by
  cases h with
  | turn hreader harrival hturn =>
    rw [hreader, harrival]
    simpa using hturn.work
  | arrive packet =>
    have hmono := w.reader.work_mono (show 4 * w.ring.length + 8 ≤
      4 * w.ring.length + 4 * w.readable.toNat + 8 by omega)
    have hadd := w.reader.work_add (4 * w.ring.length + 4 * w.readable.toNat) 8
    have hlength : 4 * (w.ring ++ [packet]).length + 4 * 1 = 4 * w.ring.length + 8 := by
      simp
      ring
    simp only [Side.work, Label.ofReader, Label.isArrival, Bool.toNat_true, Bool.toNat_false,
      hlength]
    omega
  | asked hreader harrival =>
    rw [hreader, harrival]
    simp [Side.work]
  | nothing hreader harrival =>
    rw [hreader, harrival]
    simp

lemma Beside.quit {w w' : Side} {label : Label} (h : Beside w label w') (hquit : w.quit = true) :
    w'.quit = true := by
  cases h with
  | turn _ _ hturn => cases hturn <;> exact hquit
  | asked => rfl
  | _ => exact hquit

/-- A reader that has been asked to stop always has a step to make until it is gone. -/
lemma readerGoes_enabled {s : State} (hquit : s.quit = true) (hr : s.reader ≠ .gone) :
    ∃ s', readerGoes s = some s' := by
  rw [← Option.isSome_iff_exists]
  unfold readerGoes
  cases h : s.reader with
  | inside => cases s.ring <;> rfl
  | waiting =>
    by_cases hreadable : s.readable = true
    · simp [hreadable]
    · simp [hreadable, hquit]
  | handing packet => by_cases hclosed : s.queueClosed = true <;> simp [hclosed]
  | gone => exact absurd h hr
  | _ => rfl

/-- **Once asked to stop, the reader leaves**: it always has a step to make, and it has left after
as many as the packets that wait for it, and that still arrive, account for. -/
theorem reader_leaves {s t : State} {labels : List Label} (hquit : s.quit = true)
    (h : Lib.run step s labels = some t) :
    labels.countP Label.ofReader + t.work ≤ s.work + 8 * labels.countP Label.isArrival ∧
    (t.reader = .gone ∨ t.main = .exited ∨ ∃ t', step t .reader = some t') := by
  induction labels generalizing s with
  | nil =>
    obtain rfl := Option.some.inj h
    refine ⟨by simp, ?_⟩
    by_cases hr : s.reader = .gone
    · exact .inl hr
    by_cases hm : s.main = .exited
    · exact .inr (.inl hm)
    obtain ⟨s', hs⟩ := readerGoes_enabled hquit hr
    exact .inr (.inr ⟨s', by rw [step, if_neg hm]; exact hs⟩)
  | cons label labels ih =>
    obtain ⟨s', hs, hrun⟩ := (Lib.run_cons step).mp h
    have hbeside := beside_of_step hs
    obtain ⟨ih1, ih2⟩ := ih (hbeside.quit hquit) hrun
    refine ⟨?_, ih2⟩
    have hwork : s'.work + label.ofReader.toNat ≤ s.work + 8 * label.isArrival.toNat := hbeside.work
    cases hr : label.ofReader <;> cases ha : label.isArrival <;>
      simp only [hr, ha, Bool.toNat_true, Bool.toNat_false] at hwork <;>
      simp [hr, ha] <;> omega

/-- The reader is asked to stop with a packet in the ring. -/
def asked : State :=
  { State.start false 0 with reader := .inside, main := .expecting, quit := true, ring := [[0x45]] }

theorem reader_leaves_asked : ∃ t, Lib.run step asked (List.replicate 6 .reader) = some t ∧
    6 + t.work ≤ asked.work ∧ ∃ t', step t .reader = some t' :=
  ⟨_, rfl, (@reader_leaves asked _ (List.replicate 6 .reader) rfl rfl).1, _, rfl⟩

/-! ### The packets -/

/-- What has become of the packets that arrived, and what stands between the ring and the queue. -/
structure Carried (w : Side) : Prop where
  packets : w.arrived = w.pushed ++ w.unpushed ++ w.reader.inHand ++ w.ring
  open_ : w.queueClosed = true → w.reader = .dropping ∨ w.reader = .telling ∨ w.reader = .gone
  unpushed : w.unpushed ≠ [] → w.reader = .gone
  one : w.unpushed.length ≤ 1
  woken : w.reader = .refused ∨ w.reader = .waiting → w.ring ≠ [] → w.readable = true

lemma Turn.carried {w w' : Side} (h : Turn w w') (hc : Carried w) : Carried w' := by
  obtain ⟨h1, h2, h3, h4, h5⟩ := hc
  cases h <;> constructor <;> simp_all [ReaderAt.inHand]

lemma Beside.carried {w w' : Side} {label : Label} (h : Beside w label w') (hc : Carried w) :
    Carried w' := by
  cases h with
  | turn _ _ hturn => exact hturn.carried hc
  | arrive packet =>
    obtain ⟨hpackets, hopen, hunpushed, hone, -⟩ := hc
    exact ⟨by simp [hpackets], hopen, hunpushed, hone, fun _ _ => rfl⟩
  | asked => exact { hc with }
  | nothing => exact hc

/-- A packet is dropped out of the hand of a reader that panics, and by nothing else. -/
lemma Beside.unpushed {w w' : Side} {label : Label} (h : Beside w label w') (hc : Carried w) :
    w'.unpushed = w.unpushed ∨
      (w.unpushed = [] ∧ w'.unpushed = w.reader.inHand ∧ w'.reader = .gone) := by
  have hnone (hr : w.reader ≠ .gone) : w.unpushed = [] := by
    by_contra hne
    exact hr (hc.unpushed hne)
  cases h with
  | turn _ _ hturn =>
    cases hturn with
    | refuse hr hclosed =>
      -- the queue is closed by the reader alone, on its way out
      rcases hc.open_ hclosed with h | h | h <;> rw [hr] at h <;> cases h
    | panicPush hr => exact .inr ⟨hnone (by simp [hr]), by rw [hr]; rfl, rfl⟩
    | _ => exact .inl rfl
  | _ => exact .inl rfl

/-- **No packet is lost or slept over between the ring and the queue**: what arrived is on the
queue, in order, but for what is in the reader's hand and in the ring. One packet may be missing:
a step that drops a packet drops the one in the hand of a reader that panics, and there is no other
after it. A reader that waits with a packet in the ring is about to be woken. -/
theorem packets_carried (watching : Bool) (tasks : ℕ) {labels : List Label} {s : State}
    (h : Lib.run step (.start watching tasks) labels = some s) :
    s.arrived = s.pushed ++ s.unpushed ++ s.reader.inHand ++ s.ring ∧
    s.unpushed.length ≤ 1 ∧
    (∀ label s', step s label = some s' → s'.unpushed = s.unpushed ∨
      (s.unpushed = [] ∧ s'.unpushed = s.reader.inHand ∧ s'.reader = .gone)) ∧
    (s.unpushed ≠ [] → s.reader = .gone) ∧
    (s.reader = .waiting → s.ring ≠ [] → s.readable = true) := by
  have hc : Carried s.side := by
    refine Lib.run_inv (I := fun s => Carried s.side) (fun s label s' hc hs => ?_) ?_ h
    · exact (beside_of_step hs).carried hc
    · exact ⟨rfl, fun hclosed => Bool.noConfusion hclosed, fun hne => absurd rfl hne,
        Nat.zero_le 1, fun _ hne => absurd rfl hne⟩
  exact ⟨hc.packets, hc.one, fun label s' hs => (beside_of_step hs).unpushed hc, hc.unpushed,
    fun hr => hc.woken (.inr hr)⟩

theorem packets_carried_shutdown : ∃ s, Lib.run step (.start true 1) shutdown = some s ∧
    s.arrived = [[0x45]] ∧ s.arrived = s.pushed ++ s.unpushed ++ s.reader.inHand ++ s.ring ∧
    s.unpushed.length ≤ 1 :=
  ⟨_, rfl, rfl, (@packets_carried true 1 shutdown _ rfl).1,
    (@packets_carried true 1 shutdown _ rfl).2.1⟩

end Masqr.Tun.Session
