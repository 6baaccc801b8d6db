import Masqr.Lib.Run
import Masqr.Queue.Packet

/-!
A live session of the adapter, and how it is taken down while a thread is reading from it.

The thread that reads, the one that carries and later takes everything down, the callbacks of
Windows and the tasks that hold the core move in any order. The order of the shutdown is stop, wait,
end, close; what the driver asks of its callers is stated on its own, as what it makes of a
sequence of calls.
-/

namespace Masqr.Tun.Session

open Masqr.Lib Masqr.Queue

/-! ### What the driver asks of its callers -/

/-- The half of a session that is inside it. -/
inductive Half | reader | writer
  deriving DecidableEq

/-- What is asked of the driver and of Windows about a session. A half is inside it for as long as
it uses memory of the ring. -/
inductive Call
  | enter (half : Half)
  | leave (half : Half)
  | wait
  | woken
  | endSession
  | closeAdapter
  | setQuit
  | closeQuit
  deriving DecidableEq

/-- Who is inside a session, and what has been taken down. -/
structure Driver where
  reading : Bool
  writing : Bool
  waiting : Bool
  ended : Bool
  closed : Bool
  quitClosed : Bool

namespace Driver

def fresh : Driver := ⟨false, false, false, false, false, false⟩

/-- The state after a call, or nothing where the call is forbidden: one that uses a session that has
ended, one that ends it with someone inside or twice, one that closes the adapter of a live session,
one that uses an event that is closed or closes one that is waited for. -/
def call (d : Driver) : Call → Option Driver
  | .enter .reader => if d.ended || d.reading then none else some { d with reading := true }
  | .enter .writer => if d.ended || d.writing then none else some { d with writing := true }
  | .leave .reader => if d.reading then some { d with reading := false } else none
  | .leave .writer => if d.writing then some { d with writing := false } else none
  | .wait =>
    if d.ended || d.waiting || d.quitClosed then none else some { d with waiting := true }
  | .woken => if d.waiting then some { d with waiting := false } else none
  | .endSession =>
    if d.ended || d.reading || d.writing || d.waiting then none else some { d with ended := true }
  | .closeAdapter => if d.ended && !d.closed then some { d with closed := true } else none
  | .setQuit => if d.quitClosed then none else some d
  | .closeQuit => if d.quitClosed || d.waiting then none else some { d with quitClosed := true }

/-- The driver forbids none of the calls. -/
def Allows (calls : List Call) : Prop := (Lib.run call fresh calls).isSome

end Driver

/-! ### The threads -/

/-- Where the thread that reads is: in `recv`, handing over what it got, or on its way out. -/
inductive ReaderAt
  | asking
  | inside
  | copying (packet : Packet)
  | refused
  | waiting
  | handing (packet : Packet)
  | leaving
  | dropping
  | telling
  | gone

/-- Where the main task is: carrying packets, inside a write, or at a step of the shutdown. -/
inductive MainAt
  | carrying
  | writing
  | stopping
  | cancelling
  | asking
  | expecting
  | closing
  | ending
  | dropping
  | releasing
  | down
  | exited
  deriving DecidableEq

/-- What the reader's side of `left` has done. -/
inductive Left | silent | told | dropped
  deriving DecidableEq

/-- The threads and what they share. `readable` and `quit` are events, `swapped` the flag that the
session has been ended. `lineHolds`, `mainHolds` and `tasks` are who holds the core, `callbacks` the
calls from Windows in progress. The last four say what has happened. -/
structure State where
  reader : ReaderAt
  main : MainAt
  ring : List Packet
  readable : Bool
  quit : Bool
  swapped : Bool
  readerHolds : Bool
  writerHolds : Bool
  left : Left
  queueClosed : Bool
  lineHolds : Bool
  mainHolds : Bool
  tasks : ℕ
  callbacks : ℕ
  arrived : List Packet
  pushed : List Packet
  unpushed : List Packet
  calls : List Call

/-- A session that has just started, with the line watched or not, and the tasks that hold the
core. -/
def State.start (watching : Bool) (tasks : ℕ) : State where
  reader := .asking
  main := .carrying
  ring := []
  readable := false
  quit := false
  swapped := false
  readerHolds := true
  writerHolds := true
  left := .silent
  queueClosed := false
  lineHolds := watching
  mainHolds := true
  tasks := tasks
  callbacks := 0
  arrived := []
  pushed := []
  unpushed := []
  calls := []

namespace State

variable (s : State)

def ask (call : Call) : State := { s with calls := s.calls ++ [call] }

/-- `Session::close`, where nothing else holds the session. -/
def close : State := if s.swapped then s else { s with swapped := true }.ask .endSession

/-- The last handle on the session is dropped. -/
def dropSession : State := s.close.ask .closeQuit

def dropReader : State :=
  if s.writerHolds then { s with readerHolds := false }
  else { s with readerHolds := false }.dropSession

def dropWriter : State :=
  if s.readerHolds then { s with writerHolds := false }
  else { s with writerHolds := false }.dropSession

/-- A handle on the core is dropped, and the adapter closed with the last. -/
def dropCore : State :=
  if s.lineHolds ∨ s.mainHolds ∨ 0 < s.tasks then s else s.ask .closeAdapter

/-- The registration for line changes is dropped, where there is one, and the core it held. -/
def dropLine : State := if s.lineHolds then { s with lineHolds := false }.dropCore else s

def dropMain : State := { s with mainHolds := false }.dropCore
def dropTask : State := { s with tasks := s.tasks - 1 }.dropCore

end State

/-- What happens next. A packet arrives; a callback begins or ends; the reader goes on, or has a
call fail, or panics where the lock of the queue is poisoned; the main task writes a packet, stops,
goes on, or stops waiting; a task takes another handle on the core, or drops one. -/
inductive Label
  | arrive (packet : Packet)
  | callback
  | returned
  | reader
  | readerFails
  | readerPanics
  | write
  | stop
  | main
  | timeout
  | taken
  | dropped
  deriving DecidableEq

/-- The thread that reads: `recv` in a loop, what comes of it, and its way out. -/
def readerGoes (s : State) : Option State :=
  match s.reader with
  | .asking => some ({ s with reader := .inside }.ask (.enter .reader))
  | .inside =>
    match s.ring with
    | [] => some ({ s with reader := .refused }.ask (.leave .reader))
    | packet :: ring => some { s with reader := .copying packet, ring := ring }
  | .copying packet => some ({ s with reader := .handing packet }.ask (.leave .reader))
  | .refused => some ({ s with reader := .waiting }.ask .wait)
  | .waiting =>
    -- the first of the events that is set decides, and the driver's own stands first
    if s.readable then some ({ s with reader := .asking, readable := false }.ask .woken)
    else if s.quit then some ({ s with reader := .leaving }.ask .woken)
    else none
  | .handing packet =>
    if s.queueClosed then some { s with reader := .leaving, unpushed := [packet] }
    else some { s with reader := .asking, pushed := s.pushed ++ [packet] }
  | .leaving => some { s with reader := .dropping, queueClosed := true }
  | .dropping => some { s.dropReader with reader := .telling }
  | .telling => some { s with reader := .gone, left := .told }
  | .gone => none

/-- The main task once it has stopped carrying, and where a write ends. -/
def mainGoes (s : State) : Option State :=
  match s.main with
  | .carrying => none
  | .writing => some ({ s with main := .carrying }.ask (.leave .writer))
  | .stopping => some { s with main := .cancelling }
  | .cancelling =>
    -- the registration is not gone before its last callback has returned
    if s.callbacks = 0 then some { s.dropLine with main := .asking } else none
  | .asking => some ({ s with main := .expecting, quit := true }.ask .setQuit)
  | .expecting =>
    match s.left with
    | .silent => none
    | .told => some { s with main := .closing }
    | .dropped => some { s with main := .exited }
  | .closing =>
    some (if s.swapped then { s with main := .dropping }
      else { s with main := .ending, swapped := true })
  | .ending => some ({ s with main := .dropping }.ask .endSession)
  | .dropping => some { s.dropWriter with main := .releasing }
  | .releasing => some { s.dropMain with main := .down }
  | .down | .exited => none

/-- A call of the reader fails: the driver has nothing to give and is not merely empty, or the wait
cannot be made. -/
def readerFails (s : State) : Option State :=
  match s.reader with
  | .inside => some ({ s with reader := .leaving }.ask (.leave .reader))
  | .waiting => some ({ s with reader := .leaving }.ask .woken)
  | _ => none

/-- The reader panics where it takes the lock of the queue, and what its thread held is dropped. -/
def readerPanics (s : State) : Option State :=
  match s.reader with
  | .handing packet =>
    some { s.dropReader with reader := .gone, left := .dropped, unpushed := [packet] }
  | .leaving => some { s.dropReader with reader := .gone, left := .dropped }
  | _ => none

def act (s : State) : Label → Option State
  | .arrive packet =>
    some { s with ring := s.ring ++ [packet], arrived := s.arrived ++ [packet], readable := true }
  | .callback =>
    if s.lineHolds ∧ s.main ≠ .cancelling then some { s with callbacks := s.callbacks + 1 }
    else none
  | .returned => if s.callbacks = 0 then none else some { s with callbacks := s.callbacks - 1 }
  | .reader => readerGoes s
  | .readerFails => readerFails s
  | .readerPanics => readerPanics s
  | .write =>
    if s.main = .carrying then some ({ s with main := .writing }.ask (.enter .writer)) else none
  | .stop => if s.main = .carrying then some { s with main := .stopping } else none
  | .main => mainGoes s
  | .timeout => if s.main = .expecting then some { s with main := .exited } else none
  | .taken => if 0 < s.tasks then some { s with tasks := s.tasks + 1 } else none
  | .dropped => if 0 < s.tasks then some s.dropTask else none

/-- One step of one party, for as long as the process is there. -/
def step (s : State) (label : Label) : Option State :=
  if s.main = .exited then none else act s label

/-! ### The invariant -/

namespace ReaderAt

/-- Inside the session, or with memory of its ring in hand. -/
def isInside : ReaderAt → Bool
  | .inside | .copying _ => true
  | _ => false

def isWaiting : ReaderAt → Bool
  | .waiting => true
  | _ => false

/-- Its handle on the session is not yet dropped. -/
def holds : ReaderAt → Bool
  | .telling | .gone => false
  | _ => true

/-- The packet it has taken from the ring and not yet handed over. -/
def inHand : ReaderAt → List Packet
  | .copying packet | .handing packet => [packet]
  | _ => []

end ReaderAt

namespace MainAt

def isWriting : MainAt → Bool
  | .writing => true
  | _ => false

/-- The reader has been seen to leave. -/
def pastWait : MainAt → Bool
  | .closing | .ending | .dropping | .releasing | .down => true
  | _ => false

/-- The session has been ended, or is about to be. -/
def pastSwap : MainAt → Bool
  | .ending | .dropping | .releasing | .down => true
  | _ => false

def pastEnd : MainAt → Bool
  | .dropping | .releasing | .down => true
  | _ => false

/-- Its handle on the session is not yet dropped. -/
def holds : MainAt → Bool
  | .releasing | .down => false
  | _ => true

def watches : MainAt → Bool
  | .carrying | .writing | .stopping | .cancelling => true
  | _ => false

end MainAt

/-- Nothing holds the core. -/
def State.letGo (s : State) : Bool := !s.lineHolds && !s.mainHolds && s.tasks == 0

/-- What the driver has been told by the time the threads are where they are. -/
def State.driver (s : State) : Driver where
  reading := s.reader.isInside
  writing := s.main.isWriting
  waiting := s.reader.isWaiting
  ended := s.main.pastEnd
  closed := s.letGo
  quitClosed := !s.main.holds

/-- Who holds what, by where the threads are. -/
structure Placed (s : State) : Prop where
  readerHolds : s.readerHolds = s.reader.holds
  writerHolds : s.writerHolds = s.main.holds
  mainHolds : s.mainHolds = decide (s.main ≠ .down)
  lineHolds : s.lineHolds = true → s.main.watches = true
  swapped : s.swapped = s.main.pastSwap
  left : s.main.pastWait = true → s.reader.holds = false
  told : s.left = .told → s.reader.holds = false

/-- The driver allows the call a step makes, and is told by it what the step has done. -/
def Follows (s s' : State) : Prop :=
  ∃ call : Option Call, s'.calls = s.calls ++ call.toList ∧
    Lib.run Driver.call s.driver call.toList = some s'.driver

lemma Placed.start (watching : Bool) (tasks : ℕ) : Placed (.start watching tasks) where
  readerHolds := rfl
  writerHolds := rfl
  mainHolds := rfl
  lineHolds _ := rfl
  swapped := rfl
  left h := by cases h
  told h := by cases h

variable {s s' : State}

lemma Follows.silent (hcalls : s'.calls = s.calls) (hd : s'.driver = s.driver) : Follows s s' :=
  ⟨none, by simp [hcalls], by rw [hd]; rfl⟩

lemma Follows.one {c : Call} (hcalls : s'.calls = s.calls ++ [c])
    (hc : s.driver.call c = some s'.driver) : Follows s s' :=
  ⟨some c, hcalls, (Lib.run_cons Driver.call).mpr ⟨_, hc, rfl⟩⟩

namespace Placed

/-- Until the reader has dropped its handle, the session stands. -/
lemma stands (h : Placed s) (hold : s.reader.holds = true) :
    s.main.pastWait = false ∧ s.main.pastEnd = false ∧ s.main.holds = true := by
  have hpast : s.main.pastWait = false := by
    by_contra hpast
    rw [h.left (by simpa using hpast)] at hold
    cases hold
  cases hm : s.main <;> simp_all [MainAt.pastWait, MainAt.pastEnd, MainAt.holds]

/-- So dropping it ends nothing. -/
lemma dropReader (h : Placed s) (hold : s.reader.holds = true) :
    s.dropReader = { s with readerHolds := false } := by
  simp [State.dropReader, h.writerHolds, (h.stands hold).2.2]

/-- The reader elsewhere, with its handle where it was. -/
lemma reader (h : Placed s) (at' : ReaderAt) (hold : at'.holds = s.reader.holds) :
    Placed { s with reader := at' } where
  readerHolds := h.readerHolds.trans hold.symm
  writerHolds := h.writerHolds
  mainHolds := h.mainHolds
  lineHolds := h.lineHolds
  swapped := h.swapped
  left hpast := hold.trans (h.left hpast)
  told ht := hold.trans (h.told ht)

/-- The reader without its handle. -/
lemma let_go (h : Placed s) (at' : ReaderAt) (left : Left) (hold : at'.holds = false) :
    Placed { s with reader := at', readerHolds := false, left := left } where
  readerHolds := hold.symm
  writerHolds := h.writerHolds
  mainHolds := h.mainHolds
  lineHolds := h.lineHolds
  swapped := h.swapped
  left _ := hold
  told _ := hold

/-- The main task elsewhere on its way to the reader having left. -/
lemma main (h : Placed s) (at' : MainAt) (hpast : at'.pastWait = s.main.pastWait)
    (hswap : at'.pastSwap = s.main.pastSwap) (hold : at'.holds = s.main.holds)
    (hdown : at' ≠ .down ↔ s.main ≠ .down) (hwatch : s.main.watches = true → at'.watches = true) :
    Placed { s with main := at' } where
  readerHolds := h.readerHolds
  writerHolds := h.writerHolds.trans hold.symm
  mainHolds := by simpa [hdown] using h.mainHolds
  lineHolds hl := hwatch (h.lineHolds hl)
  swapped := h.swapped.trans hswap.symm
  left hp := h.left (hpast ▸ hp)
  told := h.told

end Placed

section

attribute [local simp] State.driver State.letGo State.ask Driver.call

section

attribute [local simp] ReaderAt.isInside ReaderAt.isWaiting ReaderAt.holds

/-- What a step keeps. -/
structure Kept (s s' : State) : Prop where
  placed : Placed s'
  follows : Follows s s'

lemma Placed.readerGoes (h : Placed s) (hs : readerGoes s = some s') : Kept s s' := by
  unfold Session.readerGoes at hs
  cases hr : s.reader with
  | asking =>
    simp only [hr] at hs
    cases hs
    have hends := (h.stands (by rw [hr]; rfl)).2.1
    exact ⟨{ h.reader .inside (by rw [hr]; rfl) with },
      .one rfl (by simp [hr, hends])⟩
  | inside =>
    simp only [hr] at hs
    split at hs
    · cases hs
      exact ⟨{ h.reader .refused (by rw [hr]; rfl) with },
        .one rfl (by simp [hr])⟩
    · cases hs
      exact ⟨{ h.reader (.copying _) (by rw [hr]; rfl) with },
        .silent rfl (by simp [hr])⟩
  | copying packet =>
    simp only [hr] at hs
    cases hs
    exact ⟨{ h.reader (.handing packet) (by rw [hr]; rfl) with },
      .one rfl (by simp [hr])⟩
  | refused =>
    simp only [hr] at hs
    cases hs
    obtain ⟨-, hends, hmain⟩ := h.stands (by rw [hr]; rfl)
    exact ⟨{ h.reader .waiting (by rw [hr]; rfl) with },
      .one rfl (by simp [hr, hends, hmain])⟩
  | waiting =>
    simp only [hr] at hs
    split_ifs at hs
    · cases hs
      exact ⟨{ h.reader .asking (by rw [hr]; rfl) with },
        .one rfl (by simp [hr])⟩
    · cases hs
      exact ⟨{ h.reader .leaving (by rw [hr]; rfl) with },
        .one rfl (by simp [hr])⟩
  | handing packet =>
    simp only [hr] at hs
    split_ifs at hs
    · cases hs
      exact ⟨{ h.reader .leaving (by rw [hr]; rfl) with },
        .silent rfl (by simp [hr])⟩
    · cases hs
      exact ⟨{ h.reader .asking (by rw [hr]; rfl) with },
        .silent rfl (by simp [hr])⟩
  | leaving =>
    simp only [hr] at hs
    cases hs
    exact ⟨{ h.reader .dropping (by rw [hr]; rfl) with },
      .silent rfl (by simp [hr])⟩
  | dropping =>
    simp only [hr, h.dropReader (by rw [hr]; rfl)] at hs
    cases hs
    exact ⟨h.let_go _ _ rfl, .silent rfl (by simp [hr])⟩
  | telling =>
    simp only [hr] at hs
    cases hs
    have hheld : s.readerHolds = false := by rw [h.readerHolds, hr]; rfl
    exact ⟨{ h.let_go .gone _ rfl with readerHolds := hheld },
      .silent rfl (by simp [hr])⟩
  | gone =>
    simp only [hr] at hs
    cases hs

/-- A reader without its handle is not in the driver's hands. -/
lemma ReaderAt.not_inside {r : ReaderAt} (h : r.holds = false) :
    r.isInside = false ∧ r.isWaiting = false := by
  cases r <;> simp_all

lemma Placed.readerFails (h : Placed s) (hs : readerFails s = some s') : Kept s s' := by
  unfold Session.readerFails at hs
  split at hs
  · next hr =>
    cases hs
    exact ⟨{ h.reader .leaving (by rw [hr]; rfl) with }, .one rfl (by simp [hr])⟩
  · next hr =>
    cases hs
    exact ⟨{ h.reader .leaving (by rw [hr]; rfl) with }, .one rfl (by simp [hr])⟩
  · cases hs

lemma Placed.readerPanics (h : Placed s) (hs : readerPanics s = some s') : Kept s s' := by
  unfold Session.readerPanics at hs
  split at hs
  · next packet hr =>
    rw [h.dropReader (by rw [hr]; rfl)] at hs
    cases hs
    exact ⟨{ h.let_go .gone .dropped rfl with }, .silent rfl (by simp [hr])⟩
  · next hr =>
    rw [h.dropReader (by rw [hr]; rfl)] at hs
    cases hs
    exact ⟨h.let_go _ _ rfl, .silent rfl (by simp [hr])⟩
  · cases hs

end

section

attribute [local simp] MainAt.isWriting MainAt.pastWait MainAt.pastSwap MainAt.pastEnd MainAt.holds
  MainAt.watches

/-- What is left of the core's handles decides. -/
lemma State.dropCore_cases (s : State) :
    s.letGo = true ∧ s.dropCore = s.ask .closeAdapter ∨ s.letGo = false ∧ s.dropCore = s := by
  unfold State.dropCore
  split_ifs with hheld
  · refine .inr ⟨?_, rfl⟩
    obtain hl | hm | ht := hheld
    · simp [hl]
    · simp [hm]
    · simp [ht.ne']
  · push Not at hheld
    exact .inl ⟨by simp_all, rfl⟩

/-- The core stays while the main task has its handle. -/
lemma State.dropLine_held (hmain : s.mainHolds = true) :
    s.dropLine = { s with lineHolds := false } := by
  unfold State.dropLine
  split_ifs with hline
  · simp [State.dropCore, hmain]
  · simp at hline
    cases s
    simp_all

/-- With the session ended and the reader's handle gone, the writer's closes the event. -/
lemma State.dropWriter_ended (hswapped : s.swapped = true) (hreader : s.readerHolds = false) :
    s.dropWriter = { s with writerHolds := false }.ask .closeQuit := by
  simp [State.dropWriter, State.dropSession, State.close, hreader, hswapped]

lemma Placed.line_gone (h : Placed s) (hm : s.main.watches = false) : s.lineHolds = false := by
  by_contra hline
  rw [h.lineHolds (by simpa using hline)] at hm
  cases hm

lemma Placed.mainGoes (h : Placed s) (hs : mainGoes s = some s') : Kept s s' := by
  unfold Session.mainGoes at hs
  cases hm : s.main with
  | carrying =>
    simp only [hm] at hs
    cases hs
  | writing =>
    simp only [hm] at hs
    cases hs
    exact ⟨{ h.main .carrying (by simp [hm]) (by simp [hm]) (by simp [hm])
        (by simp [hm]) (by simp [hm]) with }, .one rfl (by simp [hm])⟩
  | stopping =>
    simp only [hm] at hs
    cases hs
    exact ⟨{ h.main .cancelling (by simp [hm]) (by simp [hm]) (by simp [hm])
        (by simp [hm]) (by simp [hm]) with }, .silent rfl (by simp [hm])⟩
  | cancelling =>
    have hmain : s.mainHolds = true := by simp [h.mainHolds, hm]
    simp only [hm, State.dropLine_held hmain] at hs
    split_ifs at hs
    cases hs
    refine ⟨⟨h.readerHolds, ?_, ?_, ?_, ?_, ?_, h.told⟩, .silent rfl ?_⟩
    all_goals simp [h.writerHolds, h.swapped, hmain, hm]
  | asking =>
    simp only [hm] at hs
    cases hs
    have hline : s.lineHolds = false := h.line_gone (by simp [hm])
    refine ⟨⟨h.readerHolds, ?_, ?_, ?_, ?_, ?_, h.told⟩, .one rfl ?_⟩
    all_goals simp [h.writerHolds, h.mainHolds, h.swapped, hline, hm]
  | expecting =>
    have hline : s.lineHolds = false := h.line_gone (by simp [hm])
    simp only [hm] at hs
    split at hs
    · cases hs
    · next ht =>
      cases hs
      refine ⟨⟨h.readerHolds, ?_, ?_, ?_, ?_, fun _ => h.told ht, h.told⟩, .silent rfl ?_⟩
      all_goals simp [h.writerHolds, h.mainHolds, h.swapped, hline, hm]
    · cases hs
      refine ⟨⟨h.readerHolds, ?_, ?_, ?_, ?_, ?_, h.told⟩, .silent rfl ?_⟩
      all_goals simp [h.writerHolds, h.mainHolds, h.swapped, hline, hm]
  | closing =>
    have hline : s.lineHolds = false := h.line_gone (by simp [hm])
    have hleft := h.left (by simp [hm])
    have hswapped : s.swapped = false := by simp [h.swapped, hm]
    simp only [hm, hswapped] at hs
    cases hs
    refine ⟨⟨h.readerHolds, ?_, ?_, ?_, ?_, fun _ => hleft, h.told⟩, .silent rfl ?_⟩
    all_goals simp [h.writerHolds, h.mainHolds, hline, hm]
  | ending =>
    have hline : s.lineHolds = false := h.line_gone (by simp [hm])
    have hleft := h.left (by simp [hm])
    simp only [hm] at hs
    cases hs
    refine ⟨⟨h.readerHolds, ?_, ?_, ?_, ?_, fun _ => hleft, h.told⟩, .one rfl ?_⟩
    all_goals
      simp [h.writerHolds, h.mainHolds, h.swapped, hline, hm, ReaderAt.not_inside hleft]
  | dropping =>
    have hline : s.lineHolds = false := h.line_gone (by simp [hm])
    have hleft := h.left (by simp [hm])
    have hswapped : s.swapped = true := by simp [h.swapped, hm]
    have hreader : s.readerHolds = false := by rw [h.readerHolds, hleft]
    simp only [hm, State.dropWriter_ended hswapped hreader] at hs
    cases hs
    refine ⟨⟨h.readerHolds, ?_, ?_, ?_, ?_, fun _ => hleft, h.told⟩, .one rfl ?_⟩
    all_goals
      simp [h.mainHolds, h.swapped, hline, hm, ReaderAt.not_inside hleft]
  | releasing =>
    have hline : s.lineHolds = false := h.line_gone (by simp [hm])
    have hleft := h.left (by simp [hm])
    have hmain : s.mainHolds = true := by simp [h.mainHolds, hm]
    obtain ⟨hgo, heq⟩ | ⟨hgo, heq⟩ := { s with mainHolds := false }.dropCore_cases
    · rw [← State.dropMain] at heq
      simp only [hm, heq] at hs
      cases hs
      refine ⟨⟨h.readerHolds, ?_, ?_, ?_, ?_, fun _ => hleft, h.told⟩, .one rfl ?_⟩
      all_goals simp_all [h.writerHolds, h.swapped]
    · rw [← State.dropMain] at heq
      simp only [hm, heq] at hs
      cases hs
      refine ⟨⟨h.readerHolds, ?_, ?_, ?_, ?_, fun _ => hleft, h.told⟩, .silent rfl ?_⟩
      all_goals simp_all [h.writerHolds, h.swapped]
  | down =>
    simp only [hm] at hs
    cases hs
  | exited =>
    simp only [hm] at hs
    cases hs

lemma Placed.step (h : Placed s) {label : Label} (hs : step s label = some s') : Kept s s' := by
  unfold Session.step at hs
  split_ifs at hs with hexited
  unfold Session.act at hs
  cases label with
  | arrive packet =>
    cases hs
    exact ⟨{ h with }, .silent rfl rfl⟩
  | callback =>
    simp only at hs
    split_ifs at hs
    cases hs
    exact ⟨{ h with }, .silent rfl rfl⟩
  | returned =>
    simp only at hs
    split_ifs at hs
    cases hs
    exact ⟨{ h with }, .silent rfl rfl⟩
  | reader => exact h.readerGoes hs
  | readerFails => exact h.readerFails hs
  | readerPanics => exact h.readerPanics hs
  | write =>
    simp only at hs
    split_ifs at hs with hm
    cases hs
    exact ⟨{ h.main .writing (by simp [hm]) (by simp [hm]) (by simp [hm])
        (by simp [hm]) (by simp [hm]) with }, .one rfl (by simp [hm])⟩
  | stop =>
    simp only at hs
    split_ifs at hs with hm
    cases hs
    exact ⟨{ h.main .stopping (by simp [hm]) (by simp [hm]) (by simp [hm])
        (by simp [hm]) (by simp [hm]) with }, .silent rfl (by simp [hm])⟩
  | main => exact h.mainGoes hs
  | timeout =>
    simp only at hs
    split_ifs at hs with hm
    cases hs
    have hline : s.lineHolds = false := h.line_gone (by simp [hm])
    refine ⟨⟨h.readerHolds, ?_, ?_, ?_, ?_, ?_, h.told⟩, .silent rfl ?_⟩
    all_goals simp [h.writerHolds, h.mainHolds, h.swapped, hline, hm]
  | taken =>
    simp only at hs
    split_ifs at hs with htasks
    cases hs
    refine ⟨{ h with }, .silent rfl ?_⟩
    simp [htasks.ne']
  | dropped =>
    simp only at hs
    split_ifs at hs with htasks
    obtain ⟨hgo, heq⟩ | ⟨hgo, heq⟩ := { s with tasks := s.tasks - 1 }.dropCore_cases
    · rw [← State.dropTask] at heq
      rw [heq] at hs
      cases hs
      have hdown : s.main = .down := by
        have hmain := h.mainHolds
        simp_all
      refine ⟨{ h with }, .one rfl ?_⟩
      simp_all
      omega
    · rw [← State.dropTask] at heq
      rw [heq] at hs
      cases hs
      have hheld : s.letGo = false := by simp [htasks.ne']
      refine ⟨{ h with }, .silent rfl ?_⟩
      unfold State.driver
      rw [hheld, hgo]

end

end

/-! ### The order of the shutdown -/

/-- The calls that take the session down. -/
def takeDown : List Call := [.endSession, .closeQuit, .closeAdapter]

namespace Driver

/-- What has been taken down went in the order of the calls that take a session down. -/
structure Staged (d : Driver) : Prop where
  quitClosed : d.quitClosed = true → d.ended = true
  closed : d.closed = true → d.quitClosed = true

/-- The calls that have taken down what is down. -/
def done (d : Driver) : List Call :=
  takeDown.take (d.ended.toNat + d.quitClosed.toNat + d.closed.toNat)

lemma done_call {d d' : Driver} {c : Call} (h : d.call c = some d') (hd : d.Staged)
    (hd' : d'.Staged) : d'.done = d.done ++ [c].filter (· ∈ takeDown) := by
  obtain ⟨h1, h2⟩ := hd
  obtain ⟨h3, h4⟩ := hd'
  unfold call at h
  split at h
  all_goals
    try split_ifs at h
    cases h
    simp_all [done, takeDown]

end Driver

lemma Placed.staged {s : State} (h : Placed s) : s.driver.Staged where
  quitClosed hquit := by cases hm : s.main <;> simp_all [State.driver, MainAt.holds, MainAt.pastEnd]
  closed hclosed := by
    have hmain := h.mainHolds
    simp_all [State.driver, State.letGo, MainAt.holds]

lemma good (watching : Bool) (tasks : ℕ) {labels : List Label} {s : State}
    (h : Lib.run step (.start watching tasks) labels = some s) :
    Placed s ∧ Lib.run Driver.call Driver.fresh s.calls = some s.driver ∧
      s.calls.filter (· ∈ takeDown) = s.driver.done := by
  refine Lib.run_inv (I := fun s => Placed s ∧
    Lib.run Driver.call Driver.fresh s.calls = some s.driver ∧
      s.calls.filter (· ∈ takeDown) = s.driver.done) ?_ ?_ h
  · rintro s label s' ⟨hplaced, hcalls, hdone⟩ hs
    obtain ⟨hplaced', call, hmore, hd⟩ := hplaced.step hs
    refine ⟨hplaced', by rw [hmore, Lib.run_append]; exact ⟨_, hcalls, hd⟩, ?_⟩
    rw [hmore, List.filter_append, hdone]
    cases call with
    | none =>
      obtain hsame : s.driver = s'.driver := Option.some.inj hd
      simp [hsame]
    | some c =>
      obtain ⟨d, hc, hlast⟩ := (Lib.run_cons Driver.call).mp hd
      obtain rfl : d = s'.driver := Option.some.inj hlast
      exact (Driver.done_call hc hplaced.staged hplaced'.staged).symm
  · exact ⟨.start watching tasks, by cases watching <;> rfl, by cases watching <;> rfl⟩

/-- **No order of the steps breaks a rule of the driver.** -/
theorem driver_allows (watching : Bool) (tasks : ℕ) {labels : List Label} {s : State}
    (h : Lib.run step (.start watching tasks) labels = some s) : Driver.Allows s.calls := by
  unfold Driver.Allows
  rw [(good watching tasks h).2.1]
  rfl

/-- A packet comes in, the main task stops, and the reader leaves and is waited for. -/
def shutdown : List Label :=
  [.arrive [0x45], .reader, .callback, .reader, .reader, .reader, .stop, .main, .returned, .main,
    .main, .reader, .reader, .reader, .reader, .reader, .reader, .reader, .reader, .reader, .reader,
    .reader, .main, .main, .main, .main, .main, .dropped]

theorem driver_allows_shutdown : ∃ s, Lib.run step (.start true 1) shutdown = some s ∧
    s.calls = [.enter .reader, .leave .reader, .setQuit, .enter .reader, .leave .reader, .wait,
      .woken, .enter .reader, .leave .reader, .wait, .woken, .endSession, .closeQuit,
      .closeAdapter] ∧
    Driver.Allows s.calls :=
  ⟨_, rfl, rfl, @driver_allows true 1 shutdown _ rfl⟩

/-- **The session is taken down in order, once or not at all**: the calls that take it down come in
their order, each once at the most; when the main task has waited for the reader and everything is
let go, all of them have been made; when it has waited in vain, none of them. -/
theorem taken_down (watching : Bool) (tasks : ℕ) {labels : List Label} {s : State}
    (h : Lib.run step (.start watching tasks) labels = some s) :
    s.calls.filter (· ∈ takeDown) <+: takeDown ∧
    (s.main = .down → s.tasks = 0 → s.calls.filter (· ∈ takeDown) = takeDown) ∧
    (s.main = .exited → s.calls.filter (· ∈ takeDown) = []) := by
  obtain ⟨hplaced, -, hdone⟩ := good watching tasks h
  rw [hdone]
  refine ⟨List.take_prefix _ _, fun hm htasks => ?_, fun hm => ?_⟩
  · have hmain : s.mainHolds = false := by simp [hplaced.mainHolds, hm]
    have hline : s.lineHolds = false := hplaced.line_gone (by rw [hm]; rfl)
    simp [Driver.done, takeDown, State.driver, State.letGo, hm, htasks, hmain, hline,
      MainAt.pastEnd, MainAt.holds]
  · have hmain : s.mainHolds = true := by simp [hplaced.mainHolds, hm]
    simp [Driver.done, State.driver, State.letGo, hm, hmain, MainAt.pastEnd, MainAt.holds]

/-- The reader is parked handing over a packet, and the main task stops waiting for it. -/
def parked : List Label :=
  [.arrive [0x45], .reader, .reader, .reader, .stop, .main, .main, .main, .timeout]

theorem taken_down_shutdown : ∃ s s', Lib.run step (.start true 1) shutdown = some s ∧
    Lib.run step (.start true 1) parked = some s' ∧
    s.calls.filter (· ∈ takeDown) = [.endSession, .closeQuit, .closeAdapter] ∧
    s'.calls.filter (· ∈ takeDown) = [] :=
  ⟨_, _, rfl, rfl, (@taken_down true 1 shutdown _ rfl).2.1 rfl rfl,
    (@taken_down true 1 parked _ rfl).2.2 rfl⟩

end Masqr.Tun.Session
