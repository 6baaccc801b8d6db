import Mathlib
import Masqr.Lib.Stream
import Masqr.Transport.Qpack
import Masqr.Transport.Varint

/-!
HTTP/3, as much of it as one extended CONNECT and the datagrams behind it need.
-/

namespace Masqr.Transport

open Masqr.Lib

namespace Http3

/-! ### Frames -/

def DATA : ℕ := 0x00
def HEADERS : ℕ := 0x01
def CANCEL_PUSH : ℕ := 0x03
def SETTINGS : ℕ := 0x04
def PUSH_PROMISE : ℕ := 0x05
def GOAWAY : ℕ := 0x07
def MAX_PUSH_ID : ℕ := 0x0d

/-- Types HTTP/2 used that HTTP/3 reserves. -/
def FROM_HTTP2 : List ℕ := [0x02, 0x06, 0x08, 0x09]

/-- The largest frame this side buffers. -/
def MAX_FRAME : ℕ := 65535

def hex (n : ℕ) : String := "0x" ++ String.ofList (Nat.toDigits 16 n)

/-- The endpoint breaking a rule of the protocol. -/
inductive H3Error
  | controlClosed
  | secondControl
  | frameTooLong (kind length : ℕ)
  | unexpected (kind : ℕ) (stream : String)
  | malformed (what : String)
  | missingSettings
  | settings (what : String)
  | qpack (problem : Qpack.QpackError)
  | message (what : String)
  deriving DecidableEq

def H3Error.text : H3Error → String
  | .controlClosed =>
    "the endpoint closed its control stream, which lives as long as the connection"
  | .secondControl => "the endpoint opened a second control stream"
  | .frameTooLong kind length =>
    s!"a frame of type {hex kind} declared {length} bytes, more than this side buffers"
  | .unexpected kind stream =>
    s!"a frame of type {hex kind} arrived on the {stream} stream, where it has no place"
  | .malformed what => s!"a {what} frame whose payload does not parse"
  | .missingSettings => "the endpoint's control stream began with something other than SETTINGS"
  | .settings what => s!"the endpoint's SETTINGS {what}"
  | .qpack problem => s!"the response header block: {problem.text}"
  | .message what => s!"the response {what}"

namespace Code

def STREAM_CREATION_ERROR : ℕ := 0x103
def CLOSED_CRITICAL_STREAM : ℕ := 0x104
def FRAME_UNEXPECTED : ℕ := 0x105
def FRAME_ERROR : ℕ := 0x106
def EXCESSIVE_LOAD : ℕ := 0x107
def SETTINGS_ERROR : ℕ := 0x109
def MISSING_SETTINGS : ℕ := 0x10a
def MESSAGE_ERROR : ℕ := 0x10e
def QPACK_DECOMPRESSION_FAILED : ℕ := 0x200

end Code

/-- The application error code to close the connection with. -/
def H3Error.code : H3Error → ℕ
  | .controlClosed => Code.CLOSED_CRITICAL_STREAM
  | .secondControl => Code.STREAM_CREATION_ERROR
  | .frameTooLong _ _ => Code.EXCESSIVE_LOAD
  | .unexpected _ _ => Code.FRAME_UNEXPECTED
  | .malformed _ => Code.FRAME_ERROR
  | .missingSettings => Code.MISSING_SETTINGS
  | .settings _ => Code.SETTINGS_ERROR
  | .qpack _ => Code.QPACK_DECOMPRESSION_FAILED
  | .message _ => Code.MESSAGE_ERROR

/-- One whole frame. -/
structure Frame where
  kind : ℕ
  payload : List UInt8
  deriving DecidableEq

/-- Types with a meaning, the reserved ones of HTTP/2 among them. -/
def isKnown (kind : ℕ) : Bool :=
  [DATA, HEADERS, CANCEL_PUSH, SETTINGS, PUSH_PROMISE, GOAWAY, MAX_PUSH_ID].contains kind ||
    FROM_HTTP2.contains kind

def putFrame (out : List UInt8) (kind : ℕ) (payload : List UInt8) : List UInt8 :=
  out ++ Varint.put kind ++ Varint.put payload.length ++ payload

/-- The bytes of one stream, and how many bytes of an unknown frame are still to be discarded. -/
structure FrameReader where
  pending : List UInt8
  skipping : ℕ
  deriving DecidableEq

def FrameReader.new : FrameReader := ⟨[], 0⟩

/-- Add what the stream delivered. -/
def FrameReader.extend (r : FrameReader) (chunk : List UInt8) : FrameReader :=
  { r with pending := r.pending ++ chunk }

/-- What has arrived of an unknown frame, discarded. -/
def FrameReader.skip (r : FrameReader) : FrameReader :=
  if 0 < r.skipping then
    let skip := min r.pending.length r.skipping
    ⟨r.pending.drop skip, r.skipping - skip⟩
  else r

/-- One round of looking for a frame: again after the header of an unknown one. -/
def FrameReader.round (r : FrameReader) :
    FrameReader ⊕ (Except H3Error (Option Frame) × FrameReader) :=
  let r := r.skip
  if 0 < r.skipping then .inr (.ok none, r)
  else
    match Varint.get r.pending with
    | none => .inr (.ok none, r)
    | some (kind, typeLen) =>
      match Varint.get (r.pending.drop typeLen) with
      | none => .inr (.ok none, r)
      | some (length, lengthLen) =>
        if isKnown kind = false then .inl ⟨r.pending.drop (typeLen + lengthLen), length⟩
        else if MAX_FRAME < length then .inr (.error (.frameTooLong kind length), r)
        else
          let total := typeLen + lengthLen + length
          if r.pending.length < total then .inr (.ok none, r)
          else
            let pending := r.pending.drop (typeLen + lengthLen)
            .inr (.ok (some ⟨kind, pending.take length⟩), { r with pending := pending.drop length })

lemma FrameReader.skip_length (r : FrameReader) : r.skip.pending.length ≤ r.pending.length := by
  unfold FrameReader.skip
  split
  · simp
  · exact le_rfl

lemma FrameReader.round_eq (r : FrameReader) : r.round =
    if 0 < r.skip.skipping then .inr (.ok none, r.skip)
    else
      match Varint.header r.skip.pending with
      | none => .inr (.ok none, r.skip)
      | some (kind, length, used) =>
        if isKnown kind = false then .inl ⟨r.skip.pending.drop used, length⟩
        else if MAX_FRAME < length then .inr (.error (.frameTooLong kind length), r.skip)
        else if r.skip.pending.length < used + length then .inr (.ok none, r.skip)
        else .inr (.ok (some ⟨kind, (r.skip.pending.drop used).take length⟩),
          { r.skip with pending := (r.skip.pending.drop used).drop length }) := by
  unfold FrameReader.round Varint.header
  by_cases hs : 0 < r.skip.skipping
  · simp only [if_pos hs]
  · simp only [if_neg hs]
    cases Varint.get r.skip.pending with
    | none => rfl
    | some front =>
      obtain ⟨kind, kindLen⟩ := front
      cases hl : Varint.get (r.skip.pending.drop kindLen) with
      | none => simp only [hl]
      | some second => simp only [hl]

/-- The next whole frame of a known type, or none until more bytes arrive. -/
def FrameReader.nextFrame : Loop FrameReader (Except H3Error (Option Frame) × FrameReader) where
  body := FrameReader.round
  measure r := r.pending.length
  lowers {r r'} h := by
    rw [FrameReader.round_eq] at h
    split at h
    · cases h
    · split at h
      · cases h
      · next kind length used hh =>
        obtain ⟨hpos, -, hused⟩ := Varint.header_some hh
        have hskip := r.skip_length
        split at h
        · cases h
          simp only [List.length_drop]
          omega
        · split at h
          · cases h
          · split at h <;> cases h

/-! ### Streams of frames -/

/-- The frames of a whole stream: a known one is a record once it is all there, and an unknown one
is left behind whatever length it declares. -/
def framing : Framing UInt8 (Option Frame) H3Error where
  take stream :=
    match Varint.header stream with
    | none => .ok none
    | some (kind, length, used) =>
      let body := stream.drop used
      if isKnown kind = false then .ok (some (none, body.drop length))
      else if MAX_FRAME < length then .error (.frameTooLong kind length)
      else if body.length < length then .ok none
      else .ok (some (some ⟨kind, body.take length⟩, body.drop length))
  shrinks {stream frame rest} h := by
    split at h
    · cases h
    · next kind length used hh =>
      obtain ⟨hpos, -, hused⟩ := Varint.header_some hh
      simp only at h
      split at h
      · cases h
        simp only [List.length_drop]
        omega
      · split at h
        · cases h
        · split at h
          · cases h
          · cases h
            simp only [List.length_drop]
            omega

/-- The frames of known types of a whole stream, and the one it could not be read past. -/
def frames (stream : List UInt8) : List Frame × Option H3Error :=
  ((framing.parse stream).1.filterMap id, (framing.parse stream).2)

lemma frames_more {stream : List UInt8} (h : framing.take stream = .ok none) :
    frames stream = ([], none) := by
  rw [frames, Framing.parse_more h]
  rfl

lemma frames_fail {stream : List UInt8} {problem : H3Error}
    (h : framing.take stream = .error problem) : frames stream = ([], some problem) := by
  rw [frames, Framing.parse_fail h]
  rfl

lemma frames_item {stream rest : List UInt8} {frame : Option Frame}
    (h : framing.take stream = .ok (some (frame, rest))) :
    frames stream = (frame.toList ++ (frames rest).1, (frames rest).2) := by
  rw [frames, Framing.parse_item h]
  cases frame <;> rfl

/-- What a reader has still to read: what it keeps and what arrives, without what it skips. -/
def FrameReader.ahead (r : FrameReader) (later : List UInt8) : List UInt8 :=
  (r.pending ++ later).drop r.skipping

lemma FrameReader.ahead_skip (r : FrameReader) (later : List UInt8) :
    r.skip.ahead later = r.ahead later := by
  unfold FrameReader.skip
  split
  · unfold FrameReader.ahead
    simp only
    rcases Nat.le_total r.pending.length r.skipping with hle | hle
    · rw [Nat.min_eq_left hle, List.drop_length, List.nil_append, List.drop_append,
        List.drop_eq_nil_of_le hle, List.nil_append]
    · rw [Nat.min_eq_right hle, Nat.sub_self, List.drop_zero, List.drop_append_of_le_length hle]
  · rfl

/-- A reader that has skipped all it can keeps nothing while there is more to skip. -/
lemma FrameReader.skip_empty (r : FrameReader) (h : 0 < r.skip.skipping) :
    r.skip.pending = [] := by
  unfold FrameReader.skip at h ⊢
  split at h
  · next hpos =>
    simp only at h
    rw [if_pos hpos]
    exact List.drop_eq_nil_of_le (by omega)
  · next hzero => exact absurd h hzero

/-- What one call of the reader does to what it has still to say. -/
def Call (r : FrameReader) (result : Except H3Error (Option Frame) × FrameReader) : Prop :=
  match result with
  | (.ok (some frame), r') => r'.pending.length < r.pending.length ∧ ∀ later,
      frames (r.ahead later) = (frame :: (frames (r'.ahead later)).1, (frames (r'.ahead later)).2)
  | (.ok none, r') => (∀ later, frames (r.ahead later) = frames (r'.ahead later)) ∧
      frames (r'.ahead []) = ([], none) ∧ r'.pending.length < 16 + MAX_FRAME ∧
      (0 < r'.skipping → r'.pending = [])
  | (.error problem, _) => ∀ later, frames (r.ahead later) = ([], some problem)

lemma nextFrame_call (r : FrameReader) : Call r (FrameReader.nextFrame.run r) := by
  refine FrameReader.nextFrame.run_rule Call ?_ ?_ r
  · intro r result h
    change r.round = .inr result at h
    rw [FrameReader.round_eq] at h
    have hskip := r.skip_length
    split at h
    · next hmore =>
      cases h
      have hempty := r.skip_empty hmore
      refine ⟨fun later => by rw [r.ahead_skip], ?_, by rw [hempty]; simp, fun _ => hempty⟩
      rw [FrameReader.ahead, hempty, List.nil_append, List.drop_nil]
      exact frames_more rfl
    · next hnone =>
      have hzero : r.skip.skipping = 0 := by omega
      have hahead : ∀ later, r.ahead later = r.skip.pending ++ later := fun later => by
        rw [← r.ahead_skip, FrameReader.ahead, hzero, List.drop_zero]
      split at h
      · next hh =>
        cases h
        have hshort := Varint.header_none hh
        refine ⟨fun later => by rw [r.ahead_skip], ?_, by omega, fun hpos => absurd hpos hnone⟩
        rw [r.ahead_skip, hahead, List.append_nil]
        exact frames_more (by simp only [framing, hh])
      · next kind length used hh =>
        obtain ⟨hpos, hused16, hused⟩ := Varint.header_some hh
        have hhead := Varint.header_append hh
        split at h
        · cases h
        · next hknown =>
          split at h
          · next hlong =>
            cases h
            intro later
            rw [hahead]
            exact frames_fail (by simp only [framing, hhead, if_neg hknown, if_pos hlong])
          · next hmax =>
            split at h
            · next hfits =>
              cases h
              refine ⟨fun later => by rw [r.ahead_skip], ?_, by omega,
                fun hpos => absurd hpos hnone⟩
              have hbody : (r.skip.pending.drop used).length < length := by
                rw [List.length_drop]
                omega
              rw [r.ahead_skip, hahead, List.append_nil]
              exact frames_more (by simp only [framing, hh, if_neg hknown, if_neg hmax, if_pos hbody])
            · next hfits =>
              cases h
              have hbody : length ≤ (r.skip.pending.drop used).length := by
                rw [List.length_drop]
                omega
              refine ⟨?_, fun later => ?_⟩
              · simp only [List.length_drop]
                omega
              have hlong : ¬ ((r.skip.pending ++ later).drop used).length < length := by
                rw [List.length_drop, List.length_append]
                omega
              have htake : framing.take (r.skip.pending ++ later) =
                  .ok (some (some ⟨kind, (r.skip.pending.drop used).take length⟩,
                    (r.skip.pending.drop used).drop length ++ later)) := by
                simp only [framing, hhead, if_neg hknown, if_neg hmax, if_neg hlong]
                rw [List.drop_append_of_le_length hused, List.take_append_of_le_length hbody,
                  List.drop_append_of_le_length hbody]
              rw [hahead, frames_item htake, FrameReader.ahead, hzero, List.drop_zero]
              rfl
  · intro r r' result h ih
    change r.round = .inl r' at h
    rw [FrameReader.round_eq] at h
    have hskip := r.skip_length
    split at h
    · cases h
    · next hnone =>
      have hzero : r.skip.skipping = 0 := by omega
      split at h
      · cases h
      · next kind length used hh =>
        obtain ⟨hpos, -, hused⟩ := Varint.header_some hh
        split at h
        · next hunknown =>
          cases h
          -- the body of an unknown frame is left behind, as much of it as there is
          have hsame : ∀ later, frames (r.ahead later) =
              frames (FrameReader.ahead ⟨r.skip.pending.drop used, length⟩ later) := by
            intro later
            have htake : framing.take (r.skip.pending ++ later) =
                .ok (some (none, (r.skip.pending.drop used ++ later).drop length)) := by
              simp only [framing, Varint.header_append hh, if_pos hunknown]
              rw [List.drop_append_of_le_length hused]
            rw [← r.ahead_skip, FrameReader.ahead, hzero, List.drop_zero, frames_item htake]
            rfl
          obtain ⟨(problem | _ | frame), r'⟩ := result
          · exact fun later => by rw [hsame, ih]
          · exact ⟨fun later => by rw [hsame, ih.1], ih.2⟩
          · refine ⟨?_, fun later => by rw [hsame, ih.2]⟩
            have hlt := ih.1
            simp only [List.length_drop] at hlt
            omega
        · split at h
          · cases h
          · split at h <;> cases h

/-- The reader that a stream is handed to in pieces. -/
def reader : Reader UInt8 Frame H3Error FrameReader where
  start := .new
  extend := FrameReader.extend
  next := FrameReader.nextFrame.run
  size r := r.pending.length
  lowers {r frame r'} h := by
    have hcall := nextFrame_call r
    rw [h] at hcall
    exact hcall.1

lemma reader_follows : reader.Follows frames FrameReader.ahead where
  start := frames_more rfl
  extend r chunk later := by
    simp only [FrameReader.ahead, reader, FrameReader.extend, List.append_assoc]
  item {r frame r'} h later := by
    have hcall := nextFrame_call r
    rw [show FrameReader.nextFrame.run r = _ from h] at hcall
    exact hcall.2 later
  more {r r'} h later := by
    have hcall := nextFrame_call r
    rw [show FrameReader.nextFrame.run r = _ from h] at hcall
    exact hcall.1 later
  idle {r r'} h := by
    have hcall := nextFrame_call r
    rw [show FrameReader.nextFrame.run r = _ from h] at hcall
    exact hcall.2.1
  fail {r problem r'} h later := by
    have hcall := nextFrame_call r
    rw [show FrameReader.nextFrame.run r = _ from h] at hcall
    exact hcall later

/-- What a reader keeps once it has asked for more. -/
lemma feed_held {chunks : List (List UInt8)} (hne : chunks ≠ [])
    (hnone : (reader.feed .new chunks).2.1 = none) :
    (reader.feed .new chunks).2.2.pending.length < 16 + MAX_FRAME ∧
      (0 < (reader.feed .new chunks).2.2.skipping →
        (reader.feed .new chunks).2.2.pending = []) := by
  obtain ⟨before, h⟩ := reader.feed_ends chunks hne .new hnone
  have hcall := nextFrame_call before
  rw [show FrameReader.nextFrame.run before = _ from h] at hcall
  exact hcall.2.2

/-! ### What is written -/

/-- A frame in any way the encoding has for its type and length. -/
lemma header_frame {kindBytes lengthBytes : List UInt8} {kind length : ℕ}
    (hk : Varint.Encodes kindBytes kind) (hl : Varint.Encodes lengthBytes length)
    (body : List UInt8) :
    Varint.header (kindBytes ++ lengthBytes ++ body) =
        some (kind, length, (kindBytes ++ lengthBytes).length) ∧
      (kindBytes ++ lengthBytes ++ body).drop (kindBytes ++ lengthBytes).length = body :=
  ⟨Varint.header_of_encodes hk hl body, List.drop_left⟩

lemma frames_unknown {kindBytes lengthBytes : List UInt8} {kind length : ℕ}
    (hk : Varint.Encodes kindBytes kind) (hunknown : isKnown kind = false)
    (hl : Varint.Encodes lengthBytes length) (later : List UInt8) :
    frames (kindBytes ++ lengthBytes ++ later) = frames (later.drop length) := by
  obtain ⟨hh, hbody⟩ := header_frame hk hl later
  have htake : framing.take (kindBytes ++ lengthBytes ++ later) =
      .ok (some (none, later.drop length)) := by
    simp only [framing, hh, if_pos hunknown, hbody]
  rw [frames_item htake]
  rfl

lemma isKnown_le {kind : ℕ} (h : isKnown kind = true) : kind ≤ Varint.MAX := by
  have hmem : kind ∈ [DATA, HEADERS, CANCEL_PUSH, SETTINGS, PUSH_PROMISE, GOAWAY, MAX_PUSH_ID] ∨
      kind ∈ FROM_HTTP2 := by simpa [isKnown] using h
  have hall : ∀ k ∈ [DATA, HEADERS, CANCEL_PUSH, SETTINGS, PUSH_PROMISE, GOAWAY, MAX_PUSH_ID] ++
      FROM_HTTP2, k ≤ Varint.MAX := by decide
  exact hall kind (List.mem_append.2 hmem)

lemma putFrame_eq (out : List UInt8) (kind : ℕ) (payload : List UInt8) :
    putFrame out kind payload = out ++ putFrame [] kind payload := by
  simp only [putFrame, List.nil_append, List.append_assoc]

lemma frames_putFrame {frame : Frame} (hknown : isKnown frame.kind = true)
    (hmax : frame.payload.length ≤ MAX_FRAME) (rest : List UInt8) :
    frames (putFrame [] frame.kind frame.payload ++ rest) =
      (frame :: (frames rest).1, (frames rest).2) := by
  have hlen : frame.payload.length ≤ Varint.MAX := le_trans hmax (by decide)
  obtain ⟨hh, hbody⟩ := header_frame (Varint.put_encodes (isKnown_le hknown))
    (Varint.put_encodes hlen) (frame.payload ++ rest)
  have hfits : ¬ (frame.payload ++ rest).length < frame.payload.length := by
    rw [List.length_append]
    omega
  have htake : framing.take (putFrame [] frame.kind frame.payload ++ rest) =
      .ok (some (some frame, rest)) := by
    rw [putFrame, List.nil_append, List.append_assoc _ frame.payload]
    simp only [framing, hh, hknown, if_neg (Nat.not_lt.2 hmax), hbody, if_neg hfits,
      List.take_left, List.drop_left]
    rfl
  rw [frames_item htake]
  rfl

lemma frames_written (written : List Frame)
    (h : ∀ frame ∈ written, isKnown frame.kind = true ∧ frame.payload.length ≤ MAX_FRAME)
    (rest : List UInt8) :
    frames ((written.map fun frame => putFrame [] frame.kind frame.payload).flatten ++ rest) =
      (written ++ (frames rest).1, (frames rest).2) := by
  induction written with
  | nil => rfl
  | cons frame written ih =>
    obtain ⟨hknown, hmax⟩ := h frame (List.mem_cons_self ..)
    have hrest := ih fun f hf => h f (List.mem_cons_of_mem _ hf)
    rw [List.map_cons, List.flatten_cons, List.append_assoc, frames_putFrame hknown hmax, hrest]
    rfl

lemma foldl_putFrame (written : List Frame) (out : List UInt8) :
    written.foldl (fun out frame => putFrame out frame.kind frame.payload) out =
      out ++ (written.map fun frame => putFrame [] frame.kind frame.payload).flatten := by
  induction written generalizing out with
  | nil => simp
  | cons frame written ih =>
    rw [List.foldl_cons, ih, putFrame_eq out, List.map_cons, List.flatten_cons, List.append_assoc]

/-- **A stream of frames cut anywhere is the stream uncut**: the frames handed out and the first
problem met are those of one pass over the whole stream, unknown frames are stepped over whatever
length they declare, and what is written comes back. A reader asking for more keeps less than a
header and the longest frame, and nothing at all inside an unknown frame. -/
theorem feed_frames :
    (∀ chunks, ((reader.feed .new chunks).1, (reader.feed .new chunks).2.1) =
      frames chunks.flatten) ∧
    (∀ written : List Frame,
      (∀ frame ∈ written, isKnown frame.kind = true ∧ frame.payload.length ≤ MAX_FRAME) →
      ∀ rest, frames (written.foldl (fun out frame => putFrame out frame.kind frame.payload) [] ++
        rest) = (written ++ (frames rest).1, (frames rest).2)) ∧
    (∀ kindBytes kind lengthBytes length, Varint.Encodes kindBytes kind → isKnown kind = false →
      Varint.Encodes lengthBytes length →
      ∀ later, frames (kindBytes ++ lengthBytes ++ later) = frames (later.drop length)) ∧
    ∀ chunks, chunks ≠ [] → (reader.feed .new chunks).2.1 = none →
      (reader.feed .new chunks).2.2.pending.length < 16 + MAX_FRAME ∧
      (0 < (reader.feed .new chunks).2.2.skipping →
        (reader.feed .new chunks).2.2.pending = []) := by
  refine ⟨fun chunks => ?_, fun written h rest => ?_,
    fun _ _ _ _ hk hunknown hl later => frames_unknown hk hunknown hl later,
    fun chunks hne hnone => feed_held hne hnone⟩
  · have hfeed := reader_follows.feed chunks
    rw [show reader.start = FrameReader.new from rfl] at hfeed
    rw [hfeed]
    rfl
  · rw [foldl_putFrame, List.nil_append]
    exact frames_written written h rest

/-- A drain that ends in a frame too long keeps all that had arrived behind it. -/
theorem frame_too_long_keeps :
    16 + MAX_FRAME ≤ (reader.feed .new
      [Varint.put HEADERS ++ Varint.put 65536 ++ List.replicate 65546 0]).2.2.pending.length := by
  have hkind : Varint.Encodes (Varint.put HEADERS) HEADERS := Varint.put_encodes (by decide)
  have hlong : Varint.Encodes (Varint.put 65536) 65536 := Varint.put_encodes (by decide)
  obtain ⟨hh, -⟩ := header_frame hkind hlong (List.replicate 65546 0)
  generalize hstream : Varint.put HEADERS ++ Varint.put 65536 ++ List.replicate 65546 0 = stream
    at hh ⊢
  have hlen : stream.length = 5 + 65546 := by
    rw [← hstream, List.length_append, List.length_append, List.length_replicate,
      Varint.length_put, Varint.length_put]
    rfl
  have hround : FrameReader.nextFrame.body ⟨stream, 0⟩ =
      .inr (.error (.frameTooLong HEADERS 65536), ⟨stream, 0⟩) := by
    change FrameReader.round ⟨stream, 0⟩ = _
    rw [FrameReader.round_eq]
    simp only [FrameReader.skip, Nat.lt_irrefl, if_false, hh]
    rfl
  have hnext : reader.next ⟨stream, 0⟩ =
      (.error (.frameTooLong HEADERS 65536), ⟨stream, 0⟩) :=
    FrameReader.nextFrame.run_stop hround
  have hextend : reader.extend .new stream = ⟨stream, 0⟩ := rfl
  rw [Reader.feed, hextend, Reader.drain_fail hnext]
  simp only [hlen]
  decide

/-! ### Datagrams -/

/-- One IP packet as the HTTP datagram of the request on a stream. -/
def datagram (streamId : ℕ) (packet : List UInt8) : List UInt8 :=
  Varint.put (streamId / 4) ++ [0] ++ packet

/-- How many bytes `datagram` puts in front of a packet. -/
def datagramOverhead (streamId : ℕ) : ℕ := Varint.len (streamId / 4) + 1

/-- The IP packet inside a datagram, where it belongs to this request and is a whole packet. -/
def datagramPacket (datagram : List UInt8) (streamId : ℕ) : Option (List UInt8) :=
  match Varint.get datagram with
  | none => none
  | some (quarter, used) =>
    if quarter ≠ streamId / 4 then none
    else
      let datagram := datagram.drop used
      match Varint.get datagram with
      | none => none
      | some (context, used) => if context ≠ 0 then none else some (datagram.drop used)

lemma length_datagram (streamId : ℕ) (packet : List UInt8) :
    (datagram streamId packet).length = packet.length + datagramOverhead streamId := by
  simp only [datagram, datagramOverhead, List.length_append, List.length_singleton,
    Varint.length_put]
  omega

lemma get_zero (rest : List UInt8) : Varint.get (0 :: rest) = some (0, 1) := by
  have hread := Varint.get_put (Nat.zero_le Varint.MAX) rest
  exact hread

lemma datagramPacket_datagram {streamId : ℕ} (h : streamId < 2 ^ 62) (streamId' : ℕ)
    (packet : List UInt8) :
    datagramPacket (datagram streamId packet) streamId' =
      if streamId / 4 ≠ streamId' / 4 then none else some packet := by
  have hquarter : streamId / 4 ≤ Varint.MAX := by
    unfold Varint.MAX
    omega
  have hread := Varint.get_put hquarter ([0] ++ packet)
  have hdrop : (Varint.put (streamId / 4) ++ ([0] ++ packet)).drop (Varint.len (streamId / 4)) =
      0 :: packet := by
    rw [← Varint.length_put, List.drop_left]
    rfl
  rw [datagramPacket, datagram, List.append_assoc, hread]
  simp only [hdrop, get_zero]
  rfl

/-- A datagram of another context is no packet of any request. -/
lemma datagramPacket_context {datagram : List UInt8} {quarter used context contextLen : ℕ}
    (hq : Varint.get datagram = some (quarter, used))
    (hc : Varint.get (datagram.drop used) = some (context, contextLen)) (hne : context ≠ 0)
    (streamId : ℕ) : datagramPacket datagram streamId = none := by
  rw [datagramPacket, hq]
  simp only [hc, if_pos hne]
  split <;> rfl

end Http3

end Masqr.Transport
