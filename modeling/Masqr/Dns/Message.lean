import Mathlib
import Masqr.Lib.Loop
import Masqr.Net

/-!
Reading DNS messages: the question out of a query, and the addresses out of a reply.
-/

namespace Masqr.Dns

open Masqr.Lib

def TYPE_A : ℕ := 1
def TYPE_AAAA : ℕ := 28
def CLASS_IN : ℕ := 1

/-- Bytes before the first question. -/
def HEADER_LEN : ℕ := 12

def MAX_LABEL : ℕ := 63
def MAX_NAME : ℕ := 255

/-- How many compression jumps one name may take. -/
def MAX_JUMPS : ℕ := 16

/-- Why a message could not be read. -/
inductive MessageError
  | truncated (what : String)
  | noQuestion
  | labelTooLong (length : ℕ)
  | nameTooLong
  | pointerOutOfRange
  | pointerLoop
  deriving DecidableEq

def MessageError.text : MessageError → String
  | .truncated what => s!"the message ends before its {what} does"
  | .noQuestion => "the message carries no question"
  | .labelTooLong length => s!"a label is {length} bytes, and 63 is the most a label may be"
  | .nameTooLong => "a name is longer than the 255 bytes a name may be"
  | .pointerOutOfRange => "a compression pointer leads outside the message"
  | .pointerLoop => "a compression pointer leads back on itself"

/-- What a query is asking for. -/
structure Query where
  id : ℕ
  name : String
  qtype : ℕ
  qclass : ℕ
  deriving DecidableEq

/-- One address a reply carries, and how long it may be believed, in seconds. -/
structure Record where
  name : String
  address : IpAddr
  ttl : ℕ
  deriving DecidableEq

abbrev Message := List UInt8

/-- The number a run of bytes spells, the first byte the greatest. -/
def fromBeBytes (bytes : List UInt8) : ℕ := bytes.foldl (fun n b => n * 256 + b.toNat) 0

/-- A run of so many bytes, where the message holds all of it. -/
def slice (message : Message) (start length : ℕ) : Option (List UInt8) :=
  if start + length ≤ message.length then some ((message.drop start).take length) else none

def readU16 (message : Message) (start : ℕ) : Option ℕ := (slice message start 2).map fromBeBytes
def readU32 (message : Message) (start : ℕ) : Option ℕ := (slice message start 4).map fromBeBytes

structure Header where
  id : ℕ
  questions : ℕ
  answers : ℕ

/-- The value, or else the message ends before its `what` does. -/
def orTruncated {α : Type} (value : Option α) (what : String) : Except MessageError α :=
  match value with
  | some a => .ok a
  | none => .error (.truncated what)

def readHeader (message : Message) : Except MessageError Header :=
  if message.length < HEADER_LEN then .error (.truncated "header")
  else .ok ⟨fromBeBytes ((message.drop 0).take 2), fromBeBytes ((message.drop 4).take 2),
    fromBeBytes ((message.drop 6).take 2)⟩

/-! ### Names -/

def byteToAsciiLowercase (b : UInt8) : UInt8 := if 65 ≤ b ∧ b ≤ 90 then b + 32 else b

/-- A byte taken for a character. -/
def asChar (b : UInt8) : Char := Char.ofNat b.toNat

/-- Where a name is being read: what it is so far, where the next byte is, where the name
ended for the caller, and how many jumps and bytes it took. -/
structure NameReader where
  name : List Char
  pos : ℕ
  after : Option ℕ
  jumps : ℕ
  seen : ℕ

/-- A jump to an earlier place; only the first decides where the name ended for the caller. -/
def NameReader.jump (s : NameReader) (target : ℕ) : NameReader :=
  { s with pos := target, after := some (s.after.getD (s.pos + 2)), jumps := s.jumps + 1 }

def NameReader.push (s : NameReader) (label : List UInt8) (length : ℕ) : NameReader :=
  let dot := if s.name.isEmpty then [] else ['.']
  { s with
    name := s.name ++ dot ++ label.map fun b => asChar (byteToAsciiLowercase b)
    pos := s.pos + 1 + length
    seen := s.seen + (length + 1) }

def pointerStep (message : Message) (s : NameReader) : Except MessageError NameReader :=
  match readU16 message s.pos with
  | none => .error (.truncated "name pointer")
  | some target =>
    let target := target % 0x4000
    if message.length ≤ target then .error .pointerOutOfRange
    else if s.pos ≤ target then .error .pointerLoop
    else if MAX_JUMPS < s.jumps + 1 then .error .pointerLoop
    else .ok (s.jump target)

def labelStep (message : Message) (s : NameReader) (length : ℕ) : Except MessageError NameReader :=
  if MAX_LABEL < length then .error (.labelTooLong length)
  else if MAX_NAME < s.seen + (length + 1) then .error .nameTooLong
  else
    match slice message (s.pos + 1) length with
    | none => .error (.truncated "label")
    | some label => .ok (s.push label length)

/-- One label, one pointer, or the end of the name. -/
def nameStep (message : Message) (s : NameReader) :
    NameReader ⊕ Except MessageError (String × ℕ) :=
  let goOn (next : Except MessageError NameReader) : NameReader ⊕ Except MessageError (String × ℕ) :=
    match next with
    | .error problem => .inr (.error problem)
    | .ok s => .inl s
  match message[s.pos]? with
  | none => .inr (.error (.truncated "name"))
  | some length =>
    if length &&& 0xc0 = 0xc0 then goOn (pointerStep message s)
    else if length = 0 then .inr (.ok (String.ofList s.name, s.after.getD (s.pos + 1)))
    else goOn (labelStep message s length.toNat)

/-- What is left of the jumps and of the bytes a name may take. -/
def NameReader.left (s : NameReader) : ℕ := MAX_JUMPS - s.jumps + (MAX_NAME - s.seen)

lemma pointerStep_left {message : Message} {s s' : NameReader}
    (h : pointerStep message s = .ok s') : s'.left < s.left := by
  unfold pointerStep at h
  dsimp only at h
  split at h
  · cases h
  · split_ifs at h with h1 h2 h3
    cases h
    simp only [NameReader.left, NameReader.jump]
    omega

lemma labelStep_left {message : Message} {s s' : NameReader} {length : ℕ}
    (h : labelStep message s length = .ok s') : s'.left < s.left := by
  unfold labelStep at h
  split_ifs at h with h1 h2
  split at h
  · cases h
  · cases h
    simp only [NameReader.left, NameReader.push]
    omega

lemma nameStep_left {message : Message} {s s' : NameReader} (h : nameStep message s = .inl s') :
    s'.left < s.left := by
  unfold nameStep at h
  dsimp only at h
  split at h
  · cases h
  · split_ifs at h
    · split at h
      · cases h
      · next hs => cases h; exact pointerStep_left hs
    · split at h
      · cases h
      · next hs => cases h; exact labelStep_left hs

def nameLoop (message : Message) : Loop NameReader (Except MessageError (String × ℕ)) where
  body := nameStep message
  measure := NameReader.left
  lowers := nameStep_left

/-- A name, compression pointers followed, and where it ended as it was written. -/
def readName (message : Message) (start : ℕ) : Except MessageError (String × ℕ) :=
  (nameLoop message).run ⟨[], start, none, 0, 0⟩

/-! ### Questions and answers -/

def readQuery (message : Message) : Except MessageError Query := do
  let header ← readHeader message
  if header.questions = 0 then throw .noQuestion
  let (name, after) ← readName message HEADER_LEN
  let qtype ← orTruncated (readU16 message after) "question type"
  let qclass ← orTruncated (readU16 message (after + 2)) "question class"
  return ⟨header.id, name, qtype, qclass⟩

/-- Past so many questions. -/
def skipQuestions (message : Message) : (n pos : ℕ) → Except MessageError ℕ
  | 0, pos => .ok pos
  | n + 1, pos => do
    let (_, after) ← readName message pos
    skipQuestions message n (after + 4)

/-- One record: the address it carries, where it carries one, and where it ends. -/
def readRecord (message : Message) (pos : ℕ) : Except MessageError (Option Record × ℕ) := do
  let (name, after) ← readName message pos
  let rtype ← orTruncated (readU16 message after) "record type"
  let rclass ← orTruncated (readU16 message (after + 2)) "record class"
  let ttl ← orTruncated (readU32 message (after + 4)) "record ttl"
  let length ← orTruncated (readU16 message (after + 8)) "record"
  let data ← orTruncated (slice message (after + 10) length) "record data"
  let address :=
    if rclass ≠ CLASS_IN then none
    else if rtype = TYPE_A ∧ length = 4 then some (IpAddr.v4 (BitVec.ofNat 32 (fromBeBytes data)))
    else if rtype = TYPE_AAAA ∧ length = 16 then
      some (IpAddr.v6 (BitVec.ofNat 128 (fromBeBytes data)))
    else none
  return (address.map fun address => ⟨name, address, ttl⟩, after + 10 + length)

/-- The addresses of so many records up to the first that cannot be read, and why it cannot. -/
def readRecords (message : Message) : (n pos : ℕ) → List Record × Option MessageError
  | 0, _ => ([], none)
  | n + 1, pos =>
    match readRecord message pos with
    | .error problem => ([], some problem)
    | .ok (record, stop) =>
      let (found, problem) := readRecords message n stop
      (record.toList ++ found, problem)

/-- The addresses a reply carries, in the order it carries them. -/
def readAnswers (message : Message) : Except MessageError (List Record) := do
  let header ← readHeader message
  let pos ← skipQuestions message header.questions HEADER_LEN
  match readRecords message header.answers pos with
  | (found, none) => return found
  | (_, some problem) => throw problem

/-- The addresses of the answer section, up to the first record that cannot be read. -/
def answerSection (message : Message) : List Record :=
  match readHeader message with
  | .error _ => []
  | .ok header =>
    match skipQuestions message header.questions HEADER_LEN with
    | .error _ => []
    | .ok pos => (readRecords message header.answers pos).1

end Masqr.Dns
