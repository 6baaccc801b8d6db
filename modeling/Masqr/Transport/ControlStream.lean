import Mathlib
import Masqr.Lib.Pipe
import Masqr.Transport.Quic
import Masqr.Transport.Settings

/-!
The endpoint's control stream: the reader that drops the frames it does not know, and the rules it
feeds the others to.
-/

namespace Masqr.Transport

open Masqr.Lib

namespace Http3

/-- What the control stream has said that the connection has to act on. -/
inductive ControlEvent
  | settings (settings : PeerSettings)
  | goAway (id : ℕ)
  deriving DecidableEq

/-- The rules of the control stream: SETTINGS first and only once, and no frame that belongs on a
request stream. -/
structure ControlStream where
  settled : Bool
  deriving DecidableEq

namespace ControlStream

def default : ControlStream := ⟨false⟩

def onFrame (c : ControlStream) (incoming : Frame) :
    Except H3Error (Option ControlEvent) × ControlStream :=
  if c.settled = false then
    if incoming.kind ≠ SETTINGS then (.error .missingSettings, c)
    else
      match PeerSettings.parse incoming.payload with
      | .error problem => (.error problem, ⟨true⟩)
      | .ok settings => (.ok (some (.settings settings)), ⟨true⟩)
  else if incoming.kind = GOAWAY then
    match Varint.get incoming.payload with
    | none => (.error (.malformed "GOAWAY"), c)
    | some (id, used) =>
      if used ≠ incoming.payload.length then (.error (.malformed "GOAWAY"), c)
      else (.ok (some (.goAway id)), c)
  -- push is never enabled from this side, so these carry nothing to act on
  else if incoming.kind = CANCEL_PUSH ∨ incoming.kind = MAX_PUSH_ID then (.ok none, c)
  else (.error (.unexpected incoming.kind "control"), c)

end ControlStream

end Http3

namespace Quic

open Http3

/-- What closed the connection: a rule that was broken, with the code and the reason given for it,
or anything else. -/
inductive Closed
  | broke (code : ℕ) (reason : String)
  | otherwise
  deriving DecidableEq

/-- What the tasks that read the endpoint's streams share with the connection: whether one of them
has the control stream, whether someone waits for SETTINGS and what was handed over, why the tunnel
ended, and what closed the connection. -/
structure Peer where
  controlSeen : Bool
  waiting : Bool
  handed : List PeerSettings
  ended : Option Ended
  closed : Option Closed
  deriving DecidableEq

namespace Peer

def new : Peer := ⟨false, true, [], none, none⟩

/-- What the control stream says, acted on. SETTINGS go to whoever waits for them; a goodbye is kept
where nothing was recorded before. -/
def act (p : Peer) : ControlEvent → Peer
  | .settings settings =>
    if p.waiting then { p with waiting := false, handed := p.handed ++ [settings] } else p
  | .goAway _ =>
    match p.ended with
    | none => { p with ended := some .goingAway }
    | some _ => p

def actAll (p : Peer) (events : List (Option ControlEvent)) : Peer :=
  events.foldl (fun p event => event.elim p p.act) p

end Peer

/-- The control stream as it is read: each frame judged as it comes. -/
def control : Reader UInt8 (Option ControlEvent) H3Error (FrameReader × ControlStream) :=
  reader.pipe ControlStream.onFrame .default

/-- How the stream stands once all of it that arrived is read. -/
inductive Finish
  | «open»
  | finished
  | lost

/-- What is returned where no frame broke a rule. -/
def Finish.result : Finish → Option (Except H3Error Unit)
  | «open» => none
  | finished => some (.error .controlClosed)
  | lost => some (.ok ())

/-- What was kept, and what arrives: drained first, and again after each chunk. -/
def judge (s : FrameReader × ControlStream) (chunks : List (List UInt8)) :
    List (Option ControlEvent) × Option H3Error :=
  match control.drain s with
  | (events, some problem, _) => (events, some problem)
  | (events, none, s) => (events ++ (control.feed s chunks).1, (control.feed s chunks).2.1)

/-- The stream from some point on: what the connection is told, and how the task ends, if it does. -/
def serveFrom (peer : Peer) (s : FrameReader × ControlStream) (chunks : List (List UInt8))
    (fin : Finish) : Peer × Option (Except H3Error Unit) :=
  let (events, problem) := judge s chunks
  (peer.actAll events, problem.elim fin.result fun problem => some (.error problem))

/-- The endpoint's control stream, the bytes behind its type in the reader. -/
def serveControl (peer : Peer) (incoming : FrameReader) (chunks : List (List UInt8))
    (fin : Finish) : Peer × Option (Except H3Error Unit) :=
  serveFrom peer (incoming, .default) chunks fin

/-! ### The whole stream -/

/-- What a whole stream comes to, read under the rules as they stand. -/
def onStream (c : ControlStream) (stream : List UInt8) :
    List (Option ControlEvent) × Option H3Error :=
  ((judgeAll ControlStream.onFrame c (frames stream).1).1,
    (judgeAll ControlStream.onFrame c (frames stream).1).2.1.or (frames stream).2)

/-- **Where the stream is cut does not matter.** -/
lemma judge_eq (pending : List UInt8) (c : ControlStream) (chunks : List (List UInt8)) :
    judge (⟨pending, 0⟩, c) chunks = onStream c (pending ++ chunks.flatten) := by
  have hfeed : judge (⟨pending, 0⟩, c) chunks =
      ((control.feed (.new, c) (pending :: chunks)).1,
        (control.feed (.new, c) (pending :: chunks)).2.1) := by
    have hextend : control.extend (.new, c) pending = (⟨pending, 0⟩, c) := rfl
    rw [judge, Reader.feed, hextend]
    rcases control.drain (⟨pending, 0⟩, c) with ⟨events, _ | problem, s⟩ <;> rfl
  have hpiped : Reader.Piped ControlStream.onFrame c (reader.feed .new (pending :: chunks))
      (control.feed (.new, c) (pending :: chunks)) := Reader.pipe_feed _ _ _
  obtain ⟨hout, hproblem, -⟩ := hpiped
  have hframes := reader_follows.feed (pending :: chunks)
  have hahead : reader.start.ahead (pending :: chunks).flatten = pending ++ chunks.flatten := rfl
  rw [hahead] at hframes
  have hrecords := congrArg Prod.fst hframes
  have hbad := congrArg Prod.snd hframes
  simp only at hrecords hbad
  rw [show reader.start = FrameReader.new from rfl] at hrecords hbad
  rw [hrecords] at hout hproblem
  rw [hbad] at hproblem
  rw [hfeed, onStream, ← hout, ← hproblem]

lemma serveFrom_eq (peer : Peer) (pending : List UInt8) (c : ControlStream)
    (chunks : List (List UInt8)) (fin : Finish) :
    serveFrom peer (⟨pending, 0⟩, c) chunks fin =
      (peer.actAll (onStream c (pending ++ chunks.flatten)).1,
        (onStream c (pending ++ chunks.flatten)).2.elim fin.result fun problem =>
          some (.error problem)) := by
  rw [serveFrom, judge_eq]

/-- A stream whose first frame is whole, in any encoding of its type and length. -/
def Begins (stream : List UInt8) (kind : ℕ) (payload rest : List UInt8) : Prop :=
  ∃ kindBytes lengthBytes, Varint.Encodes kindBytes kind ∧
    Varint.Encodes lengthBytes payload.length ∧
    stream = kindBytes ++ lengthBytes ++ (payload ++ rest)

section

variable {stream payload rest : List UInt8} {kind : ℕ} {c c' : ControlStream}

lemma Begins.header (h : Begins stream kind payload rest) : ∃ used,
    Varint.header stream = some (kind, payload.length, used) ∧
      stream.drop used = payload ++ rest := by
  obtain ⟨kindBytes, lengthBytes, hk, hl, rfl⟩ := h
  obtain ⟨hh, hbody⟩ := header_frame hk hl (payload ++ rest)
  exact ⟨_, hh, hbody⟩

lemma Begins.of_header {used length : ℕ} (hh : Varint.header stream = some (kind, length, used))
    (hwhole : length ≤ (stream.drop used).length) :
    Begins stream kind ((stream.drop used).take length) ((stream.drop used).drop length) := by
  obtain ⟨kindLen, lengthLen, hk, hl, rfl⟩ := Varint.header_eq hh
  refine ⟨stream.take kindLen, (stream.drop kindLen).take lengthLen, Varint.get_take hk, ?_, ?_⟩
  · rw [List.length_take, Nat.min_eq_left hwhole]
    exact Varint.get_take hl
  · rw [List.take_append_drop, ← List.drop_drop, List.append_assoc, List.take_append_drop,
      List.take_append_drop]

/-- A stream begins with one frame. -/
lemma Begins.unique (h : Begins stream kind payload rest) {kind' : ℕ} {payload' rest' : List UInt8}
    (h' : Begins stream kind' payload' rest') : kind' = kind ∧ payload' = payload ∧ rest' = rest := by
  obtain ⟨used, hh, hbody⟩ := h.header
  obtain ⟨used', hh', hbody'⟩ := h'.header
  rw [hh, Option.some.injEq, Prod.mk.injEq, Prod.mk.injEq] at hh'
  obtain ⟨rfl, hlen, rfl⟩ := hh'
  rw [hbody] at hbody'
  obtain ⟨hpayload, hrest⟩ := List.append_inj hbody' hlen
  exact ⟨rfl, hpayload.symm, hrest.symm⟩

lemma Begins.take_unknown (h : Begins stream kind payload rest) (hunknown : isKnown kind = false) :
    framing.take stream = .ok (some (none, rest)) := by
  obtain ⟨used, hh, hbody⟩ := h.header
  simp only [framing, hh, if_pos hunknown, hbody, List.drop_left]

lemma Begins.take_known (h : Begins stream kind payload rest) (hknown : isKnown kind = true)
    (hmax : payload.length ≤ MAX_FRAME) :
    framing.take stream = .ok (some (some ⟨kind, payload⟩, rest)) := by
  obtain ⟨used, hh, hbody⟩ := h.header
  have hfits : ¬ (payload ++ rest).length < payload.length := by
    rw [List.length_append]
    omega
  simp only [framing, hh, hknown, if_neg (Nat.not_lt.2 hmax), hbody, if_neg hfits,
    List.take_left, List.drop_left]
  rfl

lemma Begins.take_long (h : Begins stream kind payload rest) (hknown : isKnown kind = true)
    (hlong : MAX_FRAME < payload.length) :
    framing.take stream = .error (.frameTooLong kind payload.length) := by
  obtain ⟨used, hh, hbody⟩ := h.header
  simp only [framing, hh, hknown, if_pos hlong]
  rfl

lemma onStream_fail {problem : H3Error} (h : framing.take stream = .error problem) :
    onStream c stream = ([], some problem) := by
  rw [onStream, frames_fail h]
  rfl

lemma onStream_unknown (h : framing.take stream = .ok (some (none, rest))) :
    onStream c stream = onStream c rest := by
  rw [onStream, frames_item h]
  rfl

lemma onStream_ok {frame : Frame} {event : Option ControlEvent}
    (h : framing.take stream = .ok (some (some frame, rest)))
    (hframe : c.onFrame frame = (.ok event, c')) :
    onStream c stream = (event :: (onStream c' rest).1, (onStream c' rest).2) := by
  rw [onStream, frames_item h]
  simp only [Option.toList_some, List.singleton_append, judgeAll_ok hframe]
  rfl

lemma onStream_error {frame : Frame} {problem : H3Error}
    (h : framing.take stream = .ok (some (some frame, rest)))
    (hframe : c.onFrame frame = (.error problem, c')) :
    onStream c stream = ([], some problem) := by
  rw [onStream, frames_item h]
  simp only [Option.toList_some, List.singleton_append, judgeAll_error hframe]
  rfl

end

/-! ### The first frame of a known type -/

/-- A reader of frames stops at a length only. -/
lemma frames_problem (stream : List UInt8) {problem : H3Error}
    (h : (frames stream).2 = some problem) : ∃ kind length, problem = .frameTooLong kind length := by
  refine framing.source.all_rule (fun _ _ t => t = some problem → ∃ kind length,
    problem = .frameTooLong kind length) (fun s t hstop ht => ?_) (fun _ _ _ _ _ _ ih => ih) stream h
  subst ht
  simp only [Framing.source, framing] at hstop
  cases hh : Varint.header s with
  | none =>
    simp only [hh] at hstop
    cases hstop
  | some header =>
    obtain ⟨kind, length, used⟩ := header
    simp only [hh] at hstop
    split_ifs at hstop
    · cases hstop
      exact ⟨kind, length, rfl⟩
    · cases hstop

/-- SETTINGS that do not parse are not missing. -/
lemma parse_problem {payload : List UInt8} {problem : H3Error} :
    PeerSettings.parse payload = .error problem → problem ≠ .missingSettings := by
  refine PeerSettings.parsing.run_rule (fun _ result => result = .error problem →
    problem ≠ .missingSettings) (fun p result hstop hbad => ?_) (fun _ _ _ _ ih => ih) _
  subst hbad
  change p.pair = _ at hstop
  rw [PeerSettings.Parsing.pair_eq] at hstop
  split at hstop
  · cases hstop
  · split at hstop
    · cases hstop
      exact H3Error.noConfusion
    · split_ifs at hstop
      · cases hstop
        exact H3Error.noConfusion
      · cases hstop
        exact H3Error.noConfusion

/-- The first frame of a known type is SETTINGS that parse. -/
def Settles (stream : List UInt8) (settings : PeerSettings) : Prop :=
  ∃ frame, (frames stream).1.head? = some frame ∧ frame.kind = SETTINGS ∧
    PeerSettings.parse frame.payload = .ok settings

/-- The first frame of a known type is something else. -/
def Misses (stream : List UInt8) : Prop :=
  ∃ frame, (frames stream).1.head? = some frame ∧ frame.kind ≠ SETTINGS

/-- **What the first frame of a known type decides.** -/
lemma onStream_first (stream : List UInt8) :
    (∃ settings events, Settles stream settings ∧ ¬Misses stream ∧
      (onStream .default stream).1 = some (.settings settings) :: events) ∨
    ((∀ settings, ¬Settles stream settings) ∧ Misses stream ∧
      onStream .default stream = ([], some .missingSettings)) ∨
    ((∀ settings, ¬Settles stream settings) ∧ ¬Misses stream ∧
      (onStream .default stream).1 = [] ∧
      (onStream .default stream).2 ≠ some .missingSettings) := by
  unfold Settles Misses onStream
  cases hframes : (frames stream).1 with
  | nil =>
    refine .inr (.inr ⟨fun _ h => ?_, fun h => ?_, rfl, fun h => ?_⟩)
    · obtain ⟨frame, hframe, -⟩ := h
      cases hframe
    · obtain ⟨frame, hframe, -⟩ := h
      cases hframe
    · rw [judgeAll_nil, Option.none_or] at h
      obtain ⟨kind, length, hlong⟩ := frames_problem stream h
      cases hlong
  | cons frame later =>
    have hhead : ∀ frame', (frame :: later).head? = some frame' → frame' = frame := fun frame' h =>
      (Option.some.inj h).symm
    by_cases hkind : frame.kind = SETTINGS
    · cases hparse : PeerSettings.parse frame.payload with
      | error problem =>
        have hframe : ControlStream.default.onFrame frame = (.error problem, ⟨true⟩) := by
          simp [ControlStream.onFrame, ControlStream.default, hkind, hparse]
        rw [judgeAll_error hframe]
        refine .inr (.inr ⟨fun settings h => ?_, fun h => ?_, rfl, fun h => ?_⟩)
        · obtain ⟨frame', hframe', -, hok⟩ := h
          rw [hhead frame' hframe', hparse] at hok
          cases hok
        · obtain ⟨frame', hframe', hother⟩ := h
          exact hother (hhead frame' hframe' ▸ hkind)
        · exact parse_problem hparse (Option.some.inj h)
      | ok settings =>
        have hframe : ControlStream.default.onFrame frame =
            (.ok (some (.settings settings)), ⟨true⟩) := by
          simp [ControlStream.onFrame, ControlStream.default, hkind, hparse]
        rw [judgeAll_ok hframe]
        refine .inl ⟨settings, _, ⟨frame, rfl, hkind, hparse⟩, fun h => ?_, rfl⟩
        obtain ⟨frame', hframe', hother⟩ := h
        exact hother (hhead frame' hframe' ▸ hkind)
    · have hframe : ControlStream.default.onFrame frame = (.error .missingSettings, .default) := by
        simp [ControlStream.onFrame, ControlStream.default, hkind]
      rw [judgeAll_error hframe]
      refine .inr (.inl ⟨fun settings h => ?_, ⟨frame, rfl, hkind⟩, rfl⟩)
      obtain ⟨frame', hframe', hother, -⟩ := h
      exact hkind (hhead frame' hframe' ▸ hother)

lemma handed_actAll {peer : Peer} (h : peer.waiting = false) (events : List (Option ControlEvent)) :
    (peer.actAll events).handed = peer.handed := by
  induction events generalizing peer with
  | nil => rfl
  | cons event events ih =>
    cases event with
    | none => exact ih h
    | some event =>
      cases event with
      | settings settings =>
        have hsame : peer.act (.settings settings) = peer := by simp [Peer.act, h]
        have hrest := ih h
        rw [← hsame] at hrest
        exact hrest.trans (by rw [hsame])
      | goAway id =>
        have hkept : (peer.act (.goAway id)).waiting = false ∧
            (peer.act (.goAway id)).handed = peer.handed := by
          unfold Peer.act
          cases peer.ended <;> exact ⟨h, rfl⟩
        exact (ih hkept.1).trans hkept.2

/-! ### The rules -/

/-- What the opening of a control stream comes to: SETTINGS are handed over once at the most, and
exactly where they are the very first frame, whole and in order; any other whole frame in their place
ends the run. -/
structure Opens (stream : List UInt8) (told : Peer × Option (Except H3Error Unit)) : Prop where
  once : told.1.handed.length ≤ 1
  settings : ∀ settings, told.1.handed = [settings] ↔ ∃ payload rest,
    Begins stream SETTINGS payload rest ∧ payload.length ≤ MAX_FRAME ∧
      PeerSettings.parse payload = .ok settings
  missing : ∀ kind payload rest, Begins stream kind payload rest → payload.length ≤ MAX_FRAME →
    kind ≠ SETTINGS → told.2 = some (.error .missingSettings)

/-- The stream begins with a whole frame of an unknown type, which the reader drops, and what stands
behind it decides instead. -/
def Bypassed (stream : List UInt8) : Prop :=
  ∃ kind payload rest, Begins stream kind payload rest ∧ isKnown kind = false ∧
    if payload.length ≤ MAX_FRAME then ¬Misses rest else ∃ settings, Settles rest settings

/-- What a whole frame behind SETTINGS does, and what follows it. -/
structure Settled (peer : Peer) (fin : Finish) (kind : ℕ) (payload rest : List UInt8)
    (told : Peer × Option (Except H3Error Unit)) : Prop where
  unknown : isKnown kind = false → told = serveFrom peer (⟨rest, 0⟩, ⟨true⟩) [] fin
  push : payload.length ≤ MAX_FRAME → kind = CANCEL_PUSH ∨ kind = MAX_PUSH_ID →
    told = serveFrom peer (⟨rest, 0⟩, ⟨true⟩) [] fin
  goAway : payload.length ≤ MAX_FRAME → kind = GOAWAY → ∀ id, Varint.Encodes payload id →
    told = serveFrom (peer.act (.goAway id)) (⟨rest, 0⟩, ⟨true⟩) [] fin
  malformed : payload.length ≤ MAX_FRAME → kind = GOAWAY → (∀ id, ¬Varint.Encodes payload id) →
    told = (peer, some (.error (.malformed "GOAWAY")))
  unexpected : payload.length ≤ MAX_FRAME → isKnown kind = true →
    kind ≠ CANCEL_PUSH → kind ≠ MAX_PUSH_ID → kind ≠ GOAWAY →
    told = (peer, some (.error (.unexpected kind "control")))
  tooLong : isKnown kind = true → MAX_FRAME < payload.length →
    told = (peer, some (.error (.frameTooLong kind payload.length)))

/-- The run that begins in a state of the rules, over what the whole stream comes to. -/
lemma serveFrom_of_eq {peer peer' : Peer} {pending rest : List UInt8} {chunks : List (List UInt8)}
    {fin : Finish} {c c' : ControlStream} (events : List (Option ControlEvent))
    (hpeer : peer.actAll events = peer')
    (h : onStream c (pending ++ chunks.flatten) =
      (events ++ (onStream c' rest).1, (onStream c' rest).2)) :
    serveFrom peer (⟨pending, 0⟩, c) chunks fin = serveFrom peer' (⟨rest, 0⟩, c') [] fin := by
  have hsplit : peer.actAll (events ++ (onStream c' rest).1) =
      (peer.actAll events).actAll (onStream c' rest).1 := List.foldl_append
  rw [serveFrom_eq, serveFrom_eq, h, hsplit, hpeer, List.flatten_nil, List.append_nil]

lemma serveFrom_error {peer : Peer} {pending : List UInt8} {chunks : List (List UInt8)}
    {fin : Finish} {c : ControlStream} {problem : H3Error}
    (h : onStream c (pending ++ chunks.flatten) = ([], some problem)) :
    serveFrom peer (⟨pending, 0⟩, c) chunks fin = (peer, some (.error problem)) := by
  rw [serveFrom_eq, h]
  rfl

lemma settled_frame (peer : Peer) (fin : Finish) {pending : List UInt8}
    {chunks : List (List UInt8)} {kind : ℕ} {payload rest : List UInt8}
    (h : Begins (pending ++ chunks.flatten) kind payload rest) :
    Settled peer fin kind payload rest (serveFrom peer (⟨pending, 0⟩, ⟨true⟩) chunks fin) where
  unknown hunknown := serveFrom_of_eq [] rfl (onStream_unknown (h.take_unknown hunknown))
  push hmax hkind := by
    have hknown : isKnown kind = true := by rcases hkind with rfl | rfl <;> rfl
    have hframe : (ControlStream.mk true).onFrame ⟨kind, payload⟩ = (.ok none, ⟨true⟩) := by
      rcases hkind with rfl | rfl <;> rfl
    exact serveFrom_of_eq [none] rfl (onStream_ok (h.take_known hknown hmax) hframe)
  goAway hmax hkind id hid := by
    subst hkind
    have hframe : (ControlStream.mk true).onFrame ⟨GOAWAY, payload⟩ =
        (.ok (some (.goAway id)), ⟨true⟩) := by
      rw [Varint.Encodes] at hid
      simp [ControlStream.onFrame, hid]
    exact serveFrom_of_eq [some (.goAway id)] rfl
      (onStream_ok (h.take_known rfl hmax) hframe)
  malformed hmax hkind hnone := by
    subst hkind
    have hframe : (ControlStream.mk true).onFrame ⟨GOAWAY, payload⟩ =
        (.error (.malformed "GOAWAY"), ⟨true⟩) := by
      cases hget : Varint.get payload with
      | none => simp [ControlStream.onFrame, hget]
      | some found =>
        obtain ⟨id, used⟩ := found
        have hused : used ≠ payload.length := fun hall =>
          hnone id (by rw [Varint.Encodes, hget, hall])
        simp [ControlStream.onFrame, hget, hused]
    exact serveFrom_error (onStream_error (h.take_known rfl hmax) hframe)
  unexpected hmax hknown hcancel hpush hgo := by
    have hframe : (ControlStream.mk true).onFrame ⟨kind, payload⟩ =
        (.error (.unexpected kind "control"), ⟨true⟩) := by
      simp [ControlStream.onFrame, hcancel, hpush, hgo]
    exact serveFrom_error (onStream_error (h.take_known hknown hmax) hframe)
  tooLong hknown hlong := serveFrom_error (onStream_fail (h.take_long hknown hlong))

/-- Someone waits for SETTINGS, and nothing was handed over yet. -/
structure Fresh (peer : Peer) : Prop where
  waiting : peer.waiting = true
  handed : peer.handed = []

/-- What is handed over is what settles the stream. -/
lemma handed_settles {peer : Peer} (hpeer : Fresh peer) (stream : List UInt8) :
    (peer.actAll (onStream .default stream).1).handed.length ≤ 1 ∧ ∀ settings,
      (peer.actAll (onStream .default stream).1).handed = [settings] ↔ Settles stream settings := by
  have hhandles : ∀ s events, (peer.actAll (some (.settings s) :: events)).handed = [s] :=
    fun s events => by
      have hact : (peer.act (.settings s)).waiting = false ∧
          (peer.act (.settings s)).handed = [s] := by
        simp [Peer.act, hpeer.waiting, hpeer.handed]
      exact (handed_actAll hact.1 events).trans hact.2
  have hnothing : (peer.actAll []).handed = [] := hpeer.handed
  rcases onStream_first stream with ⟨s, events, hsettles, -, heq⟩ | ⟨hnone, -, heq⟩ | ⟨hnone, -, heq, -⟩
  · rw [heq, hhandles]
    refine ⟨le_rfl, fun settings => ⟨fun hsame => ?_, fun hother => ?_⟩⟩
    · rwa [← List.singleton_inj.1 hsame]
    · obtain ⟨frame, hframe, -, hok⟩ := hsettles
      obtain ⟨frame', hframe', -, hok'⟩ := hother
      rw [hframe] at hframe'
      cases hframe'
      rw [hok] at hok'
      rw [Except.ok.inj hok']
  · rw [heq, hnothing]
    exact ⟨Nat.zero_le _, fun settings => iff_of_false (List.cons_ne_nil _ _).symm (hnone settings)⟩
  · rw [heq, hnothing]
    exact ⟨Nat.zero_le _, fun settings => iff_of_false (List.cons_ne_nil _ _).symm (hnone settings)⟩

/-- How the run ends, as far as SETTINGS are missing. -/
lemma result_misses (stream : List UInt8) (fin : Finish) :
    (Misses stream → (onStream .default stream).2.elim fin.result
      (fun problem => some (.error problem)) = some (.error .missingSettings)) ∧
    (¬Misses stream → (∀ settings, ¬Settles stream settings) →
      (onStream .default stream).2.elim fin.result (fun problem => some (.error problem)) ≠
        some (.error .missingSettings)) := by
  have hfin : fin.result ≠ some (.error .missingSettings) := by cases fin <;> simp [Finish.result]
  rcases onStream_first stream with ⟨s, events, hsettles, hno, -⟩ | ⟨-, hmisses, heq⟩ |
    ⟨-, hno, -, hother⟩
  · exact ⟨fun h => absurd h hno, fun _ hnone => absurd hsettles (hnone s)⟩
  · exact ⟨fun _ => by rw [heq]; rfl, fun h => absurd hmisses h⟩
  · refine ⟨fun h => absurd h hno, fun _ _ h => ?_⟩
    cases hproblem : (onStream .default stream).2 with
    | none =>
      rw [hproblem] at h
      exact hfin h
    | some problem =>
      rw [hproblem] at h hother
      exact hother (congrArg some (Except.error.inj (Option.some.inj h)))

section

variable {stream payload rest : List UInt8} {kind : ℕ}

/-- Behind an unknown frame the same frames are seen. -/
lemma Begins.frames_unknown (h : Begins stream kind payload rest)
    (hunknown : isKnown kind = false) : frames stream = frames rest := by
  rw [frames_item (h.take_unknown hunknown)]
  rfl

lemma Begins.head (h : Begins stream kind payload rest) (hknown : isKnown kind = true)
    (hmax : payload.length ≤ MAX_FRAME) : (frames stream).1.head? = some ⟨kind, payload⟩ := by
  rw [frames_item (h.take_known hknown hmax)]
  rfl

/-- What the reader hands over first stood first, or behind a whole frame of an unknown type. -/
lemma begins_of_head {frame : Frame} (h : (frames stream).1.head? = some frame) :
    (∃ rest, Begins stream frame.kind frame.payload rest ∧ frame.payload.length ≤ MAX_FRAME) ∨
      ∃ kind payload rest, Begins stream kind payload rest ∧ isKnown kind = false := by
  cases hh : Varint.header stream with
  | none =>
    rw [frames_more (by simp only [framing, hh])] at h
    cases h
  | some header =>
    obtain ⟨kind, length, used⟩ := header
    by_cases hknown : isKnown kind = true
    · by_cases hlong : MAX_FRAME < length
      · have htake : framing.take stream = .error (.frameTooLong kind length) := by
          simp only [framing, hh, hknown, if_pos hlong]
          rfl
        rw [frames_fail htake] at h
        cases h
      · by_cases hshort : (stream.drop used).length < length
        · have htake : framing.take stream = .ok none := by
            simp only [framing, hh, hknown, if_neg hlong, if_pos hshort]
            rfl
          rw [frames_more htake] at h
          cases h
        · have hbegins := Begins.of_header hh (not_lt.1 hshort)
          have hlen : ((stream.drop used).take length).length = length := by
            rw [List.length_take, Nat.min_eq_left (not_lt.1 hshort)]
          have hmax : ((stream.drop used).take length).length ≤ MAX_FRAME := by omega
          rw [hbegins.head hknown hmax] at h
          obtain rfl := Option.some.inj h
          exact .inl ⟨_, hbegins, hmax⟩
    · have hunknown : isKnown kind = false := Bool.eq_false_iff.2 hknown
      by_cases hshort : (stream.drop used).length < length
      · have htake : framing.take stream = .ok (some (none, [])) := by
          simp only [framing, hh, if_pos hunknown, List.drop_eq_nil_of_le (Nat.le_of_lt hshort)]
        rw [frames_item htake, frames_more rfl] at h
        cases h
      · exact .inr ⟨kind, _, _, Begins.of_header hh (not_lt.1 hshort), hunknown⟩

/-- SETTINGS that stand first settle the stream, and nothing else does where none is bypassed. -/
lemma settles_iff (hnot : ¬Bypassed stream) (settings : PeerSettings) :
    Settles stream settings ↔ ∃ payload rest, Begins stream SETTINGS payload rest ∧
      payload.length ≤ MAX_FRAME ∧ PeerSettings.parse payload = .ok settings := by
  constructor
  · rintro ⟨frame, hhead, hkind, hok⟩
    rcases begins_of_head hhead with ⟨rest, hbegins, hmax⟩ | ⟨kind, payload, rest, hbegins, hunknown⟩
    · exact ⟨frame.payload, rest, hkind ▸ hbegins, hmax, hok⟩
    · refine absurd ⟨kind, payload, rest, hbegins, hunknown, ?_⟩ hnot
      rw [hbegins.frames_unknown hunknown] at hhead
      split_ifs
      · rintro ⟨frame', hhead', hother⟩
        rw [hhead] at hhead'
        cases hhead'
        exact hother hkind
      · exact ⟨settings, frame, hhead, hkind, hok⟩
  · rintro ⟨payload, rest, hbegins, hmax, hok⟩
    exact ⟨_, hbegins.head rfl hmax, rfl, hok⟩

end

/-- **Where the rule of the first frame can be got around**: exactly behind a whole frame of an
unknown type. -/
lemma opens_iff {peer : Peer} (hpeer : Fresh peer) (pending : List UInt8)
    (chunks : List (List UInt8)) (fin : Finish) :
    Opens (pending ++ chunks.flatten) (serveControl peer ⟨pending, 0⟩ chunks fin) ↔
      ¬Bypassed (pending ++ chunks.flatten) := by
  rw [serveControl, serveFrom_eq]
  generalize pending ++ chunks.flatten = stream
  obtain ⟨honce, hhanded⟩ := handed_settles hpeer stream
  obtain ⟨hmissing, hnotMissing⟩ := result_misses stream fin
  constructor
  · rintro hopens ⟨kind, payload, rest, hbegins, hunknown, hbehind⟩
    have hother : kind ≠ SETTINGS := by
      rintro rfl
      cases hunknown
    have hframes := hbegins.frames_unknown hunknown
    have hunsettled : ∀ settings, ¬Settles stream settings := fun settings hsettles => by
      obtain ⟨payload', rest', hbegins', -⟩ :=
        (hopens.settings settings).1 ((hhanded settings).2 hsettles)
      exact hother (hbegins'.unique hbegins).1
    split_ifs at hbehind with hmax
    · refine hnotMissing ?_ hunsettled (hopens.missing kind payload rest hbegins hmax hother)
      rwa [Misses, hframes]
    · obtain ⟨settings, hsettles⟩ := hbehind
      refine hunsettled settings ?_
      rwa [Settles, hframes]
  · intro hnot
    refine ⟨honce, fun settings => (hhanded settings).trans (settles_iff hnot settings),
      fun kind payload rest hbegins hmax hother => hmissing ?_⟩
    by_cases hknown : isKnown kind = true
    · exact ⟨_, hbegins.head hknown hmax, hother⟩
    · by_contra hno
      have hunknown : isKnown kind = false := Bool.eq_false_iff.2 hknown
      refine hnot ⟨kind, payload, rest, hbegins, hunknown, ?_⟩
      rw [if_pos hmax]
      rwa [Misses, hbegins.frames_unknown hunknown] at hno

/-- **The control stream, wherever it is cut.** Its opening is judged by the rules exactly where it
does not begin with a whole unknown frame that hides what stands behind: within the longest frame,
anything but a known frame that is not SETTINGS; beyond it, SETTINGS that parse. Behind SETTINGS
every whole frame does what the rules say of it. -/
theorem serveControl_opens_iff (pending : List UInt8) (chunks : List (List UInt8)) (fin : Finish) :
    (∀ peer, Fresh peer →
      (Opens (pending ++ chunks.flatten) (serveControl peer ⟨pending, 0⟩ chunks fin) ↔
        ¬Bypassed (pending ++ chunks.flatten))) ∧
    (∀ peer payload rest settings,
      Begins (pending ++ chunks.flatten) SETTINGS payload rest → payload.length ≤ MAX_FRAME →
      PeerSettings.parse payload = .ok settings →
      serveControl peer ⟨pending, 0⟩ chunks fin =
        serveFrom (peer.act (.settings settings)) (⟨rest, 0⟩, ⟨true⟩) [] fin) ∧
    ∀ peer kind payload rest, Begins (pending ++ chunks.flatten) kind payload rest →
      Settled peer fin kind payload rest (serveFrom peer (⟨pending, 0⟩, ⟨true⟩) chunks fin) := by
  refine ⟨fun peer hpeer => opens_iff hpeer pending chunks fin, ?_,
    fun peer kind payload rest hbegins => settled_frame peer fin hbegins⟩
  intro peer payload rest settings hbegins hmax hok
  have hframe : ControlStream.default.onFrame ⟨SETTINGS, payload⟩ =
      (.ok (some (.settings settings)), ⟨true⟩) := by
    simp [ControlStream.onFrame, ControlStream.default, hok]
  exact serveFrom_of_eq [some (.settings settings)] rfl
    (onStream_ok (hbegins.take_known rfl hmax) hframe)

/-- An empty frame of an unknown type, and SETTINGS behind it. -/
theorem settings_behind_unknown :
    ¬∀ pending chunks fin,
      Opens (pending ++ chunks.flatten) (serveControl .new ⟨pending, 0⟩ chunks fin) := by
  intro hclaim
  have hfresh : Fresh .new := ⟨rfl, rfl⟩
  have hopens := (opens_iff hfresh [0x21, 0, 4, 0] [] .open).1 (hclaim _ _ _)
  have hunknown : Begins [0x21, 0, 4, 0] 0x21 [] [4, 0] := ⟨[0x21], [0], rfl, rfl, rfl⟩
  have hsettings : Begins [4, 0] SETTINGS [] [] := ⟨[4], [0], rfl, rfl, rfl⟩
  refine hopens ⟨0x21, [], [4, 0], hunknown, rfl, ?_⟩
  have hempty : ([] : List UInt8).length ≤ MAX_FRAME := Nat.zero_le _
  rw [if_pos hempty]
  rintro ⟨frame, hframe, hother⟩
  rw [hsettings.head rfl hempty] at hframe
  cases hframe
  exact hother rfl

end Quic

end Masqr.Transport
