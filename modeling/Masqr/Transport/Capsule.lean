import Mathlib
import Masqr.Lib.Stream
import Masqr.Transport.Varint

/-!
HTTP capsules: how IP packets travel inside the HTTP/2 stream.
-/

namespace Masqr.Transport

open Masqr.Lib

namespace Capsule

/-- The capsule type that carries a datagram. -/
def DATAGRAM : ℕ := 0

/-- The largest capsule this tunnel waits for. -/
def MAX_CAPSULE : ℕ := 65535

/-- A capsule longer than anything this tunnel carries. -/
structure TooLong where
  length : ℕ
  deriving DecidableEq

def TooLong.text (problem : TooLong) : String :=
  s!"the endpoint declared a capsule of {problem.length} bytes, which no packet this tunnel " ++
    "carries reaches"

/-- One datagram as a capsule, appended to a buffer that already holds others. -/
def encodeDatagramInto (out payload : List UInt8) : List UInt8 :=
  out ++ Varint.put DATAGRAM ++ Varint.put payload.length ++ payload

def encodeDatagram (payload : List UInt8) : List UInt8 := encodeDatagramInto [] payload

/-- One whole capsule off the front of the buffer; one of another type gives no payload. -/
def takeCapsule (buf : List UInt8) : Except TooLong (Option (Option (List UInt8))) × List UInt8 :=
  match Varint.get buf with
  | none => (.ok none, buf)
  | some (capsuleType, typeLen) =>
    match Varint.get (buf.drop typeLen) with
    | none => (.ok none, buf)
    | some (payloadLen, lenLen) =>
      if MAX_CAPSULE < payloadLen then (.error ⟨payloadLen⟩, buf)
      else
        let total := typeLen + lenLen + payloadLen
        if buf.length < total then (.ok none, buf)
        else
          let rest := buf.drop (typeLen + lenLen)
          let payload := rest.take payloadLen
          (.ok (some (if capsuleType = DATAGRAM then some payload else none)), rest.drop payloadLen)

lemma takeCapsule_eq (buf : List UInt8) : takeCapsule buf =
    match Varint.header buf with
    | none => (.ok none, buf)
    | some (kind, length, used) =>
      if MAX_CAPSULE < length then (.error ⟨length⟩, buf)
      else if buf.length < used + length then (.ok none, buf)
      else (.ok (some (if kind = DATAGRAM then some ((buf.drop used).take length) else none)),
        (buf.drop used).drop length) := by
  unfold takeCapsule Varint.header
  cases Varint.get buf with
  | none => rfl
  | some front =>
    obtain ⟨kind, kindLen⟩ := front
    cases hl : Varint.get (buf.drop kindLen) with
    | none => simp only [hl]
    | some second => simp only [hl]

/-- A call that finds no whole capsule leaves the buffer as it was. -/
lemma takeCapsule_more {buf rest : List UInt8} (h : takeCapsule buf = (.ok none, rest)) :
    rest = buf := by
  rw [takeCapsule_eq] at h
  split at h
  · cases h; rfl
  · split at h
    · cases h
    · split at h <;> cases h
      rfl

/-- So does one that finds a capsule too long. -/
lemma takeCapsule_error {buf rest : List UInt8} {problem : TooLong}
    (h : takeCapsule buf = (.error problem, rest)) : rest = buf := by
  rw [takeCapsule_eq] at h
  split at h
  · cases h
  · split at h
    · cases h; rfl
    · split at h <;> cases h

/-- A whole capsule, and one too long, are the same whatever arrives behind them. -/
lemma takeCapsule_append {buf rest : List UInt8} {capsule : Option (List UInt8)}
    (h : takeCapsule buf = (.ok (some capsule), rest)) (later : List UInt8) :
    takeCapsule (buf ++ later) = (.ok (some capsule), rest ++ later) := by
  rw [takeCapsule_eq] at h ⊢
  split at h
  · cases h
  · next kind length used hh =>
    obtain ⟨-, -, hused⟩ := Varint.header_some hh
    rw [Varint.header_append hh]
    split at h
    · cases h
    · next hmax =>
      split at h
      · cases h
      · next hfits =>
        cases h
        have hlong : ¬ (buf ++ later).length < used + length := by
          rw [List.length_append]
          omega
        have hbody : length ≤ (buf.drop used).length := by
          rw [List.length_drop]
          omega
        simp only [if_neg hmax, if_neg hlong]
        rw [List.drop_append_of_le_length hused, List.take_append_of_le_length hbody,
          List.drop_append_of_le_length hbody]

lemma takeCapsule_append_error {buf rest : List UInt8} {problem : TooLong}
    (h : takeCapsule buf = (.error problem, rest)) (later : List UInt8) :
    takeCapsule (buf ++ later) = (.error problem, buf ++ later) := by
  rw [takeCapsule_eq] at h ⊢
  split at h
  · cases h
  · next kind length used hh =>
    rw [Varint.header_append hh]
    split at h
    · next hmax => cases h; simp only [if_pos hmax]
    · split at h <;> cases h

lemma takeCapsule_shrinks {buf rest : List UInt8} {capsule : Option (List UInt8)}
    (h : takeCapsule buf = (.ok (some capsule), rest)) : rest.length < buf.length := by
  rw [takeCapsule_eq] at h
  split at h
  · cases h
  · next kind length used hh =>
    obtain ⟨hpos, -, hused⟩ := Varint.header_some hh
    split at h
    · cases h
    · split at h
      · cases h
      · cases h
        rw [List.length_drop, List.length_drop]
        omega

/-- What is kept is less than a header and the longest capsule. -/
lemma takeCapsule_more_length {buf rest : List UInt8} (h : takeCapsule buf = (.ok none, rest)) :
    rest.length < 16 + MAX_CAPSULE := by
  rw [takeCapsule_eq] at h
  split at h
  · next hh => cases h; have := Varint.header_none hh; omega
  · next kind length used hh =>
    obtain ⟨-, hused, -⟩ := Varint.header_some hh
    split at h
    · cases h
    · split at h
      · cases h; omega
      · cases h

/-! ### Streams of capsules -/

/-- The capsules of a whole stream. -/
def framing : Framing UInt8 (Option (List UInt8)) TooLong where
  take stream :=
    match takeCapsule stream with
    | (.ok (some capsule), rest) => .ok (some (capsule, rest))
    | (.ok none, _) => .ok none
    | (.error problem, _) => .error problem
  shrinks {stream capsule rest} h := by
    split at h
    · next ht => cases h; exact takeCapsule_shrinks ht
    · cases h
    · cases h

/-- The payloads of a whole stream, and the capsule it could not be read past. -/
def payloads (stream : List UInt8) : List (List UInt8) × Option TooLong :=
  ((framing.parse stream).1.filterMap id, (framing.parse stream).2)

/-- The pending buffer of the receive loop. -/
def pending : Reader UInt8 (Option (List UInt8)) TooLong (List UInt8) where
  start := []
  extend buf chunk := buf ++ chunk
  next := takeCapsule
  size := List.length
  lowers := takeCapsule_shrinks

lemma pending_follows : pending.Follows framing.parse (fun buf later => buf ++ later) where
  start := Framing.parse_more (by rfl)
  extend buf chunk later := List.append_assoc buf chunk later
  item {buf capsule rest} h later := by
    have ht : takeCapsule (buf ++ later) = (.ok (some capsule), rest ++ later) :=
      takeCapsule_append h later
    exact Framing.parse_item (by simp only [framing, ht])
  more {buf rest} h later := by
    obtain rfl := takeCapsule_more h
    rfl
  idle {buf rest} h := by
    obtain rfl := takeCapsule_more h
    have hn : takeCapsule rest = (.ok none, rest) := h
    rw [List.append_nil]
    exact Framing.parse_more (by simp only [framing, hn])
  fail {buf problem rest} h later := by
    have ht := takeCapsule_append_error h later
    exact Framing.parse_fail (by simp only [framing, ht])

lemma payloads_more {stream rest : List UInt8} (h : takeCapsule stream = (.ok none, rest)) :
    payloads stream = ([], none) := by
  rw [payloads, Framing.parse_more (by simp only [framing, h])]
  rfl

lemma payloads_fail {stream rest : List UInt8} {problem : TooLong}
    (h : takeCapsule stream = (.error problem, rest)) : payloads stream = ([], some problem) := by
  rw [payloads, Framing.parse_fail (e := problem) (by simp only [framing, h])]
  rfl

lemma payloads_whole {stream rest : List UInt8} {capsule : Option (List UInt8)}
    (h : takeCapsule stream = (.ok (some capsule), rest)) :
    payloads stream = (capsule.toList ++ (payloads rest).1, (payloads rest).2) := by
  have hp : framing.parse stream =
      (capsule :: (framing.parse rest).1, (framing.parse rest).2) :=
    Framing.parse_item (by simp only [framing, h])
  rw [payloads, hp]
  cases capsule <;> rfl

/-- A capsule written in any way the encoding has for its type and length. -/
lemma takeCapsule_written {kindBytes lengthBytes body : List UInt8} {kind : ℕ}
    (hk : Varint.Encodes kindBytes kind) (hl : Varint.Encodes lengthBytes body.length)
    (hmax : body.length ≤ MAX_CAPSULE) (rest : List UInt8) :
    takeCapsule (kindBytes ++ lengthBytes ++ body ++ rest) =
      (.ok (some (if kind = DATAGRAM then some body else none)), rest) := by
  have hh := Varint.header_of_encodes hk hl (body ++ rest)
  rw [← List.append_assoc] at hh
  have hfits : ¬ (kindBytes ++ lengthBytes ++ body ++ rest).length <
      (kindBytes ++ lengthBytes).length + body.length := by
    simp only [List.length_append]
    omega
  have hbody : (kindBytes ++ lengthBytes ++ body ++ rest).drop (kindBytes ++ lengthBytes).length =
      body ++ rest := by
    rw [List.append_assoc (kindBytes ++ lengthBytes), List.drop_left]
  rw [takeCapsule_eq, hh]
  simp only [if_neg (Nat.not_lt.2 hmax), if_neg hfits, hbody, List.take_left, List.drop_left]

lemma encodeDatagramInto_eq (out payload : List UInt8) :
    encodeDatagramInto out payload = out ++ encodeDatagram payload := by
  simp only [encodeDatagram, encodeDatagramInto, List.nil_append, List.append_assoc]

lemma takeCapsule_encodeDatagram {payload : List UInt8} (h : payload.length ≤ MAX_CAPSULE)
    (rest : List UInt8) :
    takeCapsule (encodeDatagram payload ++ rest) = (.ok (some (some payload)), rest) := by
  have hlen : payload.length ≤ Varint.MAX := le_trans h (by decide)
  exact takeCapsule_written (Varint.put_encodes (Nat.zero_le _)) (Varint.put_encodes hlen) h rest

/-- A run of capsules within the ceiling, one put behind another, and the payloads of those that
are datagrams. -/
inductive Written : List UInt8 → List (List UInt8) → Prop
  | nil : Written [] []
  | datagram {out payloads payload} : Written out payloads → payload.length ≤ MAX_CAPSULE →
      Written (encodeDatagramInto out payload) (payloads ++ [payload])
  | foreign {out payloads kindBytes kind lengthBytes body} : Written out payloads →
      Varint.Encodes kindBytes kind → kind ≠ DATAGRAM → Varint.Encodes lengthBytes body.length →
      body.length ≤ MAX_CAPSULE → Written (out ++ (kindBytes ++ lengthBytes ++ body)) payloads

/-- **What is written comes back**, whatever follows it. -/
theorem Written.payloads_append {stream : List UInt8} {written : List (List UInt8)}
    (h : Written stream written) (rest : List UInt8) :
    payloads (stream ++ rest) = (written ++ (payloads rest).1, (payloads rest).2) := by
  induction h generalizing rest with
  | nil => rfl
  | datagram _ hmax ih =>
    rw [encodeDatagramInto_eq, List.append_assoc, ih,
      payloads_whole (takeCapsule_encodeDatagram hmax rest)]
    simp
  | foreign _ hk hkind hl hmax ih =>
    have ht := takeCapsule_written hk hl hmax rest
    rw [if_neg hkind] at ht
    rw [List.append_assoc, ih, payloads_whole ht]
    rfl

end Capsule

end Masqr.Transport
