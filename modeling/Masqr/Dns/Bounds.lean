import Mathlib
import Masqr.Lib.Fault
import Masqr.Dns.NameLimits

/-!
The reader with every sum, index and run of bytes that could stop it, and that none does.
-/

namespace Masqr.Dns

open Masqr.Lib

/-- A run of bytes as the language hands it over: it fits the memory. -/
structure Slice where
  bytes : Message
  bound : bytes.length < 2 ^ 63

namespace Checked

/-- A reader that may panic, and may refuse a message. -/
abbrev Read (α : Type) := Except (Fault MessageError) α

def refuse {α : Type} (problem : MessageError) : Read α := .error (.refused problem)

def okOr {α : Type} (value : Option α) (problem : MessageError) : Read α :=
  match value with
  | some a => .ok a
  | none => refuse problem

/-- A sum of two words. -/
def plus (a b : ℕ) : Read ℕ := if a + b < 2 ^ 64 then .ok (a + b) else .error .panic

def checkedAdd (a b : ℕ) : Option ℕ := if a + b < 2 ^ 64 then some (a + b) else none

/-- One byte, by its place. -/
def index (bytes : List UInt8) (i : ℕ) : Read UInt8 :=
  match bytes[i]? with
  | some b => .ok b
  | none => .error .panic

def getRange (bytes : List UInt8) (start stop : ℕ) : Option (List UInt8) :=
  if start ≤ stop ∧ stop ≤ bytes.length then some ((bytes.drop start).take (stop - start)) else none

/-- A run of bytes, by its ends. -/
def range (bytes : List UInt8) (start stop : ℕ) : Read (List UInt8) :=
  match getRange bytes start stop with
  | some run => .ok run
  | none => .error .panic

/-- A run of bytes that is expected to be of that length. -/
def expectArray (n : ℕ) (bytes : List UInt8) : Read (List UInt8) :=
  if bytes.length = n then .ok bytes else .error .panic

def readU16 (message : Message) (pos : ℕ) : Read (Option ℕ) := do
  let stop ← plus pos 2
  match getRange message pos stop with
  | none => return none
  | some pair =>
    let a ← index pair 0
    let b ← index pair 1
    return some (fromBeBytes [a, b])

def readU32 (message : Message) (pos : ℕ) : Read (Option ℕ) := do
  let stop ← plus pos 4
  match getRange message pos stop with
  | none => return none
  | some quad =>
    let a ← index quad 0
    let b ← index quad 1
    let c ← index quad 2
    let d ← index quad 3
    return some (fromBeBytes [a, b, c, d])

def readHeader (message : Message) : Read Header := do
  if message.length < HEADER_LEN then refuse (.truncated "header")
  else
    let id := [← index message 0, ← index message 1]
    let questions := [← index message 4, ← index message 5]
    let answers := [← index message 6, ← index message 7]
    return ⟨fromBeBytes id, fromBeBytes questions, fromBeBytes answers⟩

/-! ### Names -/

def pointerStep (message : Message) (s : NameReader) : Read NameReader := do
  let target ← okOr (← readU16 message s.pos) (.truncated "name pointer")
  let target := target % 0x4000
  if message.length ≤ target then refuse .pointerOutOfRange
  else if s.pos ≤ target then refuse .pointerLoop
  else
    let jumps ← plus s.jumps 1
    if MAX_JUMPS < jumps then refuse .pointerLoop
    else
      let stop ← plus s.pos 2
      return { s with pos := target, after := some (s.after.getD stop), jumps := jumps }

def labelStep (message : Message) (s : NameReader) (length : ℕ) : Read NameReader := do
  if MAX_LABEL < length then refuse (.labelTooLong length)
  else
    let seen ← plus s.seen (← plus length 1)
    if MAX_NAME < seen then refuse .nameTooLong
    else
      let start ← plus s.pos 1
      let stop ← okOr ((checkedAdd start length).filter fun stop => stop ≤ message.length)
        (.truncated "label")
      let label ← range message start stop
      let dot := if s.name.isEmpty then [] else ['.']
      return { s with
        name := s.name ++ dot ++ label.map fun b => asChar (byteToAsciiLowercase b)
        pos := stop
        seen := seen }

def nameStep (message : Message) (s : NameReader) : NameReader ⊕ Read (String × ℕ) :=
  let goOn (next : Read NameReader) : NameReader ⊕ Read (String × ℕ) :=
    match next with
    | .error fault => .inr (.error fault)
    | .ok s => .inl s
  match message[s.pos]? with
  | none => .inr (refuse (.truncated "name"))
  | some length =>
    if length &&& 0xc0 = 0xc0 then goOn (pointerStep message s)
    else if length = 0 then
      .inr (do return (String.ofList s.name, s.after.getD (← plus s.pos 1)))
    else goOn (labelStep message s length.toNat)

lemma plus_eq_ok {a b c : ℕ} : plus a b = .ok c ↔ a + b < 2 ^ 64 ∧ a + b = c := by
  unfold plus
  split
  · next h => simp only [Except.ok.injEq, h, true_and]
  · next h => simp only [h, reduceCtorEq, false_and]

lemma pointerStep_left {message : Message} {s s' : NameReader}
    (h : pointerStep message s = .ok s') : s'.left < s.left := by
  unfold pointerStep at h
  obtain ⟨read, -, h⟩ := bind_eq_ok.1 h
  obtain ⟨target, -, h⟩ := bind_eq_ok.1 h
  dsimp only at h
  split at h
  · cases h
  split at h
  · cases h
  obtain ⟨jumps, hjumps, h⟩ := bind_eq_ok.1 h
  obtain ⟨-, rfl⟩ := plus_eq_ok.1 hjumps
  split at h
  · cases h
  obtain ⟨stop, -, h⟩ := bind_eq_ok.1 h
  cases h
  simp only [NameReader.left]
  omega

lemma labelStep_left {message : Message} {s s' : NameReader} {length : ℕ}
    (h : labelStep message s length = .ok s') : s'.left < s.left := by
  unfold labelStep at h
  split at h
  · cases h
  obtain ⟨more, hmore, h⟩ := bind_eq_ok.1 h
  obtain ⟨-, rfl⟩ := plus_eq_ok.1 hmore
  obtain ⟨seen, hseen, h⟩ := bind_eq_ok.1 h
  obtain ⟨-, rfl⟩ := plus_eq_ok.1 hseen
  split at h
  · cases h
  obtain ⟨start, -, h⟩ := bind_eq_ok.1 h
  obtain ⟨stop, -, h⟩ := bind_eq_ok.1 h
  obtain ⟨label, -, h⟩ := bind_eq_ok.1 h
  cases h
  simp only [NameReader.left]
  omega

lemma nameStep_left {message : Message} {s s' : NameReader} (h : nameStep message s = .inl s') :
    s'.left < s.left := by
  unfold nameStep at h
  dsimp only at h
  split at h
  · cases h
  · split_ifs at h
    · split at h
      · cases h
      · next hs => cases h; exact pointerStep_left hs
    · split at h
      · cases h
      · next hs => cases h; exact labelStep_left hs

def nameLoop (message : Message) : Loop NameReader (Read (String × ℕ)) where
  body := nameStep message
  measure := NameReader.left
  lowers := nameStep_left

def readName (message : Message) (start : ℕ) : Read (String × ℕ) :=
  (nameLoop message).run ⟨[], start, none, 0, 0⟩

/-! ### Questions and answers -/

def readQuery (message : Message) : Read Query := do
  let header ← readHeader message
  if header.questions = 0 then refuse .noQuestion
  else
    let (name, after) ← readName message HEADER_LEN
    let qtype ← okOr (← readU16 message after) (.truncated "question type")
    let qclass ← okOr (← readU16 message (← plus after 2)) (.truncated "question class")
    return ⟨header.id, name, qtype, qclass⟩

def skipQuestions (message : Message) : (n pos : ℕ) → Read ℕ
  | 0, pos => .ok pos
  | n + 1, pos => do
    let (_, after) ← readName message pos
    skipQuestions message n (← plus after 4)

def readRecord (message : Message) (pos : ℕ) : Read (Option Record × ℕ) := do
  let (name, after) ← readName message pos
  let rtype ← okOr (← readU16 message after) (.truncated "record type")
  let rclass ← okOr (← readU16 message (← plus after 2)) (.truncated "record class")
  let ttl ← okOr (← readU32 message (← plus after 4)) (.truncated "record ttl")
  let length ← okOr (← readU16 message (← plus after 8)) (.truncated "record")
  let data ← plus after 10
  let stop ← okOr ((checkedAdd data length).filter fun stop => stop ≤ message.length)
    (.truncated "record data")
  if rclass = CLASS_IN then
    if rtype = TYPE_A ∧ length = 4 then
      let octets ← expectArray 4 (← range message data stop)
      return (some ⟨name, .v4 (BitVec.ofNat 32 (fromBeBytes octets)), ttl⟩, stop)
    else if rtype = TYPE_AAAA ∧ length = 16 then
      let octets ← expectArray 16 (← range message data stop)
      return (some ⟨name, .v6 (BitVec.ofNat 128 (fromBeBytes octets)), ttl⟩, stop)
    else return (none, stop)
  else return (none, stop)

def readRecords (message : Message) : (n pos : ℕ) → (found : List Record) → Read (List Record)
  | 0, _, found => .ok found
  | n + 1, pos, found => do
    let (record, stop) ← readRecord message pos
    readRecords message n stop (found ++ record.toList)

def readAnswers (message : Message) : Read (List Record) := do
  let header ← readHeader message
  let pos ← skipQuestions message header.questions HEADER_LEN
  readRecords message header.answers pos []

/-! ### Nothing stops it -/

variable {message : Message}

lemma plus_ok {a b : ℕ} (h : a + b < 2 ^ 64) : plus a b = .ok (a + b) := if_pos h

lemma getRange_eq (start n : ℕ) : getRange message start (start + n) = slice message start n := by
  unfold getRange slice
  simp

lemma okOr_eq {α : Type} (value : Option α) (what : String) :
    okOr value (.truncated what) = refusing (orTruncated value what) := by
  cases value <;> rfl

lemma readU16_eq {pos : ℕ} (h : pos + 2 < 2 ^ 64) :
    readU16 message pos = .ok (Dns.readU16 message pos) := by
  rw [readU16, plus_ok h, ok_bind, getRange_eq, Dns.readU16]
  cases hs : slice message pos 2 with
  | none => rfl
  | some pair =>
    obtain ⟨a, b, rfl⟩ := List.length_eq_two.1 (slice_eq_some hs).1
    rfl

lemma readU32_eq {pos : ℕ} (h : pos + 4 < 2 ^ 64) :
    readU32 message pos = .ok (Dns.readU32 message pos) := by
  rw [readU32, plus_ok h, ok_bind, getRange_eq, Dns.readU32]
  cases hs : slice message pos 4 with
  | none => rfl
  | some quad =>
    obtain ⟨a, b, c, d, rfl⟩ := List.length_eq_four.1 (slice_eq_some hs).1
    rfl

lemma index_pair {i : ℕ} (h : i + 1 < message.length) : ∃ a b, index message i = .ok a ∧
    index message (i + 1) = .ok b ∧ (message.drop i).take 2 = [a, b] := by
  refine ⟨message[i], message[i + 1], ?_, ?_, ?_⟩
  · rw [index, List.getElem?_eq_getElem]
  · rw [index, List.getElem?_eq_getElem h]
  · rw [List.drop_eq_getElem_cons (by omega), List.drop_eq_getElem_cons h]
    rfl

lemma readHeader_eq : readHeader message = refusing (Dns.readHeader message) := by
  unfold readHeader Dns.readHeader
  split
  · rfl
  · next h =>
    have hlength : 12 ≤ message.length := Nat.not_lt.1 h
    obtain ⟨a, b, ha, hb, hid⟩ := index_pair (i := 0) (by omega : 0 + 1 < message.length)
    obtain ⟨c, d, hc, hd, hquestions⟩ := index_pair (i := 4) (by omega : 4 + 1 < message.length)
    obtain ⟨e, f, he, hf, hanswers⟩ := index_pair (i := 6) (by omega : 6 + 1 < message.length)
    simp only [ha, hb, hc, hd, he, hf, hid, hquestions, hanswers, ok_bind]
    rfl

lemma pointerStep_eq {s : NameReader} (hpos : s.pos + 2 < 2 ^ 64) (hjumps : s.jumps + 1 < 2 ^ 64) :
    pointerStep message s = refusing (Dns.pointerStep message s) := by
  rw [pointerStep, readU16_eq hpos, ok_bind, Dns.pointerStep]
  cases Dns.readU16 message s.pos with
  | none => rfl
  | some target =>
    simp only [okOr, ok_bind, plus_ok hpos, plus_ok hjumps]
    split_ifs <;> rfl

lemma labelStep_eq {s : NameReader} {length : ℕ} (hpos : s.pos + 64 < 2 ^ 64)
    (hseen : s.seen + 64 < 2 ^ 64) :
    labelStep message s length = refusing (Dns.labelStep message s length) := by
  unfold labelStep Dns.labelStep
  by_cases hmax : MAX_LABEL < length
  · rw [if_pos hmax, if_pos hmax]
    rfl
  · have hsmall : length ≤ 63 := Nat.not_lt.1 hmax
    rw [if_neg hmax, if_neg hmax, plus_ok (by omega), ok_bind, plus_ok (by omega), ok_bind]
    by_cases hname : MAX_NAME < s.seen + (length + 1)
    · rw [if_pos hname, if_pos hname]
      rfl
    · rw [if_neg hname, if_neg hname, plus_ok (by omega), ok_bind, checkedAdd, if_pos (by omega),
        slice]
      by_cases hin : s.pos + 1 + length ≤ message.length
      · simp only [Option.filter_some, decide_eq_true hin, if_true, okOr, ok_bind, range,
          getRange_eq, slice, if_pos hin]
        rfl
      · simp only [Option.filter_some, decide_eq_false hin, if_neg hin]
        rfl

/-- A reader of names where its sums fit a word. -/
structure Small (s : NameReader) : Prop where
  pos : s.pos < 2 ^ 63 + 8
  jumps : s.jumps ≤ MAX_JUMPS
  seen : s.seen ≤ MAX_NAME

lemma nameStep_eq {s : NameReader} (h : Small s) :
    nameStep message s = (Dns.nameStep message s).map id refusing := by
  have hpos := h.pos
  have hjumps := h.jumps
  have hseen := h.seen
  simp only [MAX_JUMPS, MAX_NAME] at hjumps hseen
  unfold nameStep Dns.nameStep
  cases message[s.pos]? with
  | none => rfl
  | some length =>
    dsimp only
    split
    · rw [pointerStep_eq (by omega) (by omega)]
      cases Dns.pointerStep message s <;> rfl
    split
    · rw [plus_ok (by omega)]
      rfl
    · rw [labelStep_eq (by omega) (by omega)]
      cases Dns.labelStep message s length.toNat <;> rfl

lemma Small.step {s s' : NameReader} (hm : message.length < 2 ^ 63) (h : Small s)
    (hstep : Dns.nameStep message s = .inl s') : Small s' := by
  rcases nameStep_cases message s with ⟨problem, h'⟩ | ⟨-, h'⟩ | ⟨label, -, -, hstands, hseen, h'⟩ |
    ⟨target, hback, -, hstands, hjumps, h'⟩
  · rw [h'] at hstep
    cases hstep
  · rw [h'] at hstep
    cases hstep
  · rw [h'] at hstep
    cases hstep
    have hbound := hstands.bound
    rw [List.length_cons] at hbound
    exact ⟨by simp only [NameReader.push]; omega, h.jumps, hseen⟩
  · rw [h'] at hstep
    cases hstep
    exact ⟨lt_trans hback h.pos, hjumps, h.seen⟩

/-- **The reader of names is the one without the checks**: none of them fails. -/
theorem readName_eq {start : ℕ} (hm : message.length < 2 ^ 63) (hstart : start < 2 ^ 63 + 8) :
    readName message start = refusing (Dns.readName message start) := by
  refine Loop.run_map (Dns.nameLoop message) (nameLoop message) Small refusing
    (fun s r hs hb => ?_) (fun s s' hs hb => ?_) ⟨hstart, Nat.zero_le _, Nat.zero_le _⟩
  · change nameStep message s = _
    rw [nameStep_eq hs, show Dns.nameStep message s = _ from hb]
    rfl
  · refine ⟨?_, hs.step hm hb⟩
    change nameStep message s = _
    rw [nameStep_eq hs, show Dns.nameStep message s = _ from hb]
    rfl

theorem readQuery_eq (hm : message.length < 2 ^ 63) :
    readQuery message = refusing (Dns.readQuery message) := by
  rw [readQuery, Dns.readQuery, readHeader_eq, refusing_bind]
  congr 1
  funext header
  by_cases hnone : header.questions = 0
  · simp only [hnone, if_true]
    rfl
  · rw [if_neg hnone, if_neg hnone, readName_eq hm (by unfold HEADER_LEN; omega)]
    cases hname : Dns.readName message HEADER_LEN with
    | error problem => rfl
    | ok read =>
      obtain ⟨name, after⟩ := read
      have hafter := (readName_bounds hname).2
      simp only [refusing, ok_bind, plus_ok (by omega : after + 2 < 2 ^ 64),
        readU16_eq (by omega : after + 2 < 2 ^ 64),
        readU16_eq (by omega : after + 2 + 2 < 2 ^ 64), okOr_eq]
      cases orTruncated (Dns.readU16 message after) "question type" with
      | error problem => rfl
      | ok qtype => cases orTruncated (Dns.readU16 message (after + 2)) "question class" <;> rfl

lemma skipQuestions_eq {n pos : ℕ} (hm : message.length < 2 ^ 63) (hpos : pos < 2 ^ 63 + 8) :
    skipQuestions message n pos = refusing (Dns.skipQuestions message n pos) := by
  induction n generalizing pos with
  | zero => rfl
  | succ n ih =>
    rw [skipQuestions, Dns.skipQuestions, readName_eq hm hpos]
    cases hname : Dns.readName message pos with
    | error problem => rfl
    | ok read =>
      obtain ⟨name, after⟩ := read
      have hafter := (readName_bounds hname).2
      simp only [refusing, ok_bind, plus_ok (by omega : after + 4 < 2 ^ 64)]
      exact ih (by omega)

lemma skipQuestions_stop {n pos stop : ℕ} (h : Dns.skipQuestions message n pos = .ok stop) :
    stop = pos ∨ stop ≤ message.length + 4 := by
  induction n generalizing pos with
  | zero =>
    cases h
    exact .inl rfl
  | succ n ih =>
    rw [Dns.skipQuestions] at h
    obtain ⟨⟨name, after⟩, hname, h⟩ := bind_eq_ok.1 h
    have hafter := (readName_bounds hname).2
    rcases ih h with rfl | hle
    · exact .inr (by omega)
    · exact .inr hle

lemma readRecord_eq {pos : ℕ} (hm : message.length < 2 ^ 63) (hpos : pos < 2 ^ 63 + 8) :
    readRecord message pos = refusing (Dns.readRecord message pos) := by
  rw [readRecord, Dns.readRecord, readName_eq hm hpos]
  cases hname : Dns.readName message pos with
  | error problem => rfl
  | ok read =>
    obtain ⟨name, after⟩ := read
    have hafter := (readName_bounds hname).2
    simp only [refusing, ok_bind, plus_ok (by omega : after + 2 < 2 ^ 64),
      plus_ok (by omega : after + 4 < 2 ^ 64), plus_ok (by omega : after + 8 < 2 ^ 64),
      plus_ok (by omega : after + 10 < 2 ^ 64), readU16_eq (by omega : after + 2 < 2 ^ 64),
      readU16_eq (by omega : after + 2 + 2 < 2 ^ 64),
      readU32_eq (by omega : after + 4 + 4 < 2 ^ 64),
      readU16_eq (by omega : after + 8 + 2 < 2 ^ 64), okOr_eq]
    cases orTruncated (Dns.readU16 message after) "record type" with
    | error problem => rfl
    | ok rtype =>
    cases orTruncated (Dns.readU16 message (after + 2)) "record class" with
    | error problem => rfl
    | ok rclass =>
    cases orTruncated (Dns.readU32 message (after + 4)) "record ttl" with
    | error problem => rfl
    | ok ttl =>
    cases hlength : Dns.readU16 message (after + 8) with
    | none => rfl
    | some length =>
      have hsmall := (readU16_eq_some hlength).1
      simp only [ok_bind, orTruncated]
      rw [checkedAdd, if_pos (by omega)]
      by_cases hin : after + 10 + length ≤ message.length
      · have hrun : slice message (after + 10) length =
            some ((message.drop (after + 10)).take length) := if_pos hin
        have harray : ∀ n, length = n → expectArray n ((message.drop (after + 10)).take length) =
            .ok ((message.drop (after + 10)).take length) := by
          intro n hn
          refine if_pos ?_
          rw [List.length_take, List.length_drop]
          omega
        simp only [Option.filter_some, decide_eq_true hin, if_true, ok_bind, range, getRange_eq,
          hrun]
        by_cases hclass : rclass = CLASS_IN
        · subst hclass
          by_cases ha : rtype = TYPE_A ∧ length = 4
          · obtain ⟨rfl, rfl⟩ := ha
            rw [if_pos rfl, if_pos ⟨rfl, rfl⟩, harray 4 rfl]
            rfl
          · by_cases hb : rtype = TYPE_AAAA ∧ length = 16
            · obtain ⟨rfl, rfl⟩ := hb
              rw [if_pos rfl, if_neg ha, if_pos ⟨rfl, rfl⟩, harray 16 rfl]
              rfl
            · rw [if_pos rfl, if_neg ha, if_neg hb, if_neg (not_not_intro rfl), if_neg ha,
                if_neg hb]
              rfl
        · rw [if_neg hclass, if_pos hclass]
          rfl
      · simp only [Option.filter_some, decide_eq_false hin, slice, if_neg hin]
        rfl

lemma readRecord_stop {pos stop : ℕ} {record : Option Record}
    (h : Dns.readRecord message pos = .ok (record, stop)) : stop ≤ message.length := by
  unfold Dns.readRecord at h
  obtain ⟨⟨name, after⟩, -, h⟩ := bind_eq_ok.1 h
  obtain ⟨rtype, -, h⟩ := bind_eq_ok.1 h
  obtain ⟨rclass, -, h⟩ := bind_eq_ok.1 h
  obtain ⟨ttl, -, h⟩ := bind_eq_ok.1 h
  obtain ⟨length, -, h⟩ := bind_eq_ok.1 h
  obtain ⟨data, hdata, h⟩ := bind_eq_ok.1 h
  obtain ⟨hlength, hstands⟩ := slice_eq_some (orTruncated_eq_ok.1 hdata)
  cases h
  exact hlength ▸ hstands.bound

lemma readRecords_eq {n pos : ℕ} {found : List Record} (hm : message.length < 2 ^ 63)
    (hpos : pos < 2 ^ 63 + 8) : readRecords message n pos found =
      match Dns.readRecords message n pos with
      | (more, none) => .ok (found ++ more)
      | (_, some problem) => refuse problem := by
  induction n generalizing pos found with
  | zero => simp [readRecords, Dns.readRecords]
  | succ n ih =>
    rw [readRecords, Dns.readRecords, readRecord_eq hm hpos]
    cases hrecord : Dns.readRecord message pos with
    | error problem => rfl
    | ok read =>
      obtain ⟨record, stop⟩ := read
      have hstop := readRecord_stop hrecord
      simp only [refusing, ok_bind]
      rw [ih (by omega)]
      cases hmore : Dns.readRecords message n stop with
      | mk more problem => cases problem <;> simp

theorem readAnswers_eq (hm : message.length < 2 ^ 63) :
    readAnswers message = refusing (Dns.readAnswers message) := by
  rw [readAnswers, Dns.readAnswers, readHeader_eq, refusing_bind]
  congr 1
  funext header
  rw [skipQuestions_eq hm (by unfold HEADER_LEN; omega)]
  cases hskip : Dns.skipQuestions message header.questions HEADER_LEN with
  | error problem => rfl
  | ok pos =>
    have hpos : pos < 2 ^ 63 + 8 := by
      rcases skipQuestions_stop hskip with rfl | hle
      · unfold HEADER_LEN; omega
      · omega
    simp only [refusing, ok_bind, readRecords_eq hm hpos]
    cases Dns.readRecords message header.answers pos with
    | mk found problem => cases problem <;> rfl

/-- **No byte string makes the reader loop, panic or read out of range.** A name ends in no more
turns than it has jumps and bytes, with no more jumps than it may take, and where it is read it
ends behind where it begins and inside the message; and no sum, index, run of bytes or array of a
known length stops the reader of names, of a query or of the answers. -/
theorem reader_safe (message : Slice) (start : ℕ) (h : start ≤ message.bytes.length) :
    (∃ n t, n ≤ MAX_JUMPS + MAX_NAME ∧
      (nameLoop message.bytes).Turns ⟨[], start, none, 0, 0⟩ n t ∧ t.jumps ≤ MAX_JUMPS ∧
      (nameLoop message.bytes).body t = .inr (readName message.bytes start)) ∧
    Safe (readName message.bytes start) ∧
    (∀ name after, readName message.bytes start = .ok (name, after) →
      start < after ∧ after ≤ message.bytes.length) ∧
    Safe (readQuery message.bytes) ∧ Safe (readAnswers message.bytes) := by
  have hbound := message.bound
  have hname := readName_eq hbound (by omega : start < 2 ^ 63 + 8)
  refine ⟨?_, hname ▸ safe_refusing _, fun name after hread => ?_,
    readQuery_eq hbound ▸ safe_refusing _, readAnswers_eq hbound ▸ safe_refusing _⟩
  · obtain ⟨n, t, hn, hturns, hstop⟩ := (nameLoop message.bytes).run_ends ⟨[], start, none, 0, 0⟩
    have hsmall : Small t := by
      refine hturns.inv (I := Small) (fun s s' hs hb => hs.step hbound ?_)
        ⟨by simp only; omega, Nat.zero_le _, Nat.zero_le _⟩
      have hb' : nameStep message.bytes s = .inl s' := hb
      rw [nameStep_eq hs] at hb'
      cases hstep : Dns.nameStep message.bytes s with
      | inl next => rw [hstep] at hb'; cases hb'; rfl
      | inr value => rw [hstep] at hb'; cases hb'
    exact ⟨n, t, hn, hturns, hsmall.jumps, hstop⟩
  · rw [hname] at hread
    exact readName_bounds (refusing_eq_ok.1 hread)

/-- Two pointers with a label before each, the second to the first and the first to itself. -/
def twoPointers : Slice := ⟨[1, 97, 0xc0, 0, 1, 98, 0xc0, 0], by decide⟩

theorem reader_safe_twoPointers :
    (∃ n t, n ≤ MAX_JUMPS + MAX_NAME ∧
      (nameLoop twoPointers.bytes).Turns ⟨[], 4, none, 0, 0⟩ n t ∧ t.jumps ≤ MAX_JUMPS ∧
      (nameLoop twoPointers.bytes).body t = .inr (readName twoPointers.bytes 4)) ∧
    Safe (readName twoPointers.bytes 4) ∧
    (∀ name after, readName twoPointers.bytes 4 = .ok (name, after) →
      4 < after ∧ after ≤ twoPointers.bytes.length) ∧
    Safe (readQuery twoPointers.bytes) ∧ Safe (readAnswers twoPointers.bytes) :=
  reader_safe twoPointers 4 (by decide)

end Checked

end Masqr.Dns
