import Mathlib
import Masqr.Lib.Bytes
import Masqr.Lib.Fault
import Masqr.Dns.Message

/-!
The format of DNS messages, and that the reader inverts it.

A name may be written in many ways, so the format is a relation: what stands at a place of a
message, told from its bytes alone.
-/

namespace Masqr.Dns

open Masqr.Lib

/-! ### What stands where -/

/-- The bytes stand at that place of the message. -/
def Stands (message : Message) (start : ℕ) (bytes : List UInt8) : Prop :=
  ∃ before after, message = before ++ bytes ++ after ∧ before.length = start

/-- A name stands at `start`: its labels, the jumps it takes, the bytes of its labels with their
length bytes, and where it ends as it was written. -/
inductive NameAt (message : Message) : ℕ → List (List UInt8) → ℕ → ℕ → ℕ → Prop
  | root {start : ℕ} (h : Stands message start [0]) : NameAt message start [] 0 0 (start + 1)
  | label {start jumps size after : ℕ} {label : List UInt8} {labels : List (List UInt8)}
      (hpos : 0 < label.length) (hmax : label.length ≤ MAX_LABEL)
      (h : Stands message start (UInt8.ofNat label.length :: label))
      (rest : NameAt message (start + 1 + label.length) labels jumps size after) :
      NameAt message start (label :: labels) jumps (label.length + 1 + size) after
  | pointer {start target jumps size after : ℕ} {labels : List (List UInt8)}
      (hback : target < start) (hmax : target < 0x4000)
      (h : Stands message start (toBe 2 (0xc000 + target)))
      (rest : NameAt message target labels jumps size after) :
      NameAt message start labels (jumps + 1) size (start + 2)

/-- A name within the limits of the format. -/
def Name (message : Message) (start : ℕ) (labels : List (List UInt8)) (after : ℕ) : Prop :=
  ∃ jumps size, NameAt message start labels jumps size after ∧ jumps ≤ MAX_JUMPS ∧ size + 1 ≤ MAX_NAME

/-- So many questions stand from `start` to `stop`. -/
inductive Questions (message : Message) : ℕ → ℕ → ℕ → Prop
  | none {start : ℕ} : Questions message 0 start start
  | more {n start after stop qtype qclass : ℕ} {labels : List (List UInt8)}
      (name : Name message start labels after)
      (h : Stands message after (toBe 2 qtype ++ toBe 2 qclass))
      (rest : Questions message n (after + 4) stop) : Questions message (n + 1) start stop

structure ResourceRecord where
  owner : List (List UInt8)
  rtype : ℕ
  rclass : ℕ
  ttl : ℕ
  data : List UInt8

/-- What follows the name of a record. -/
def ResourceRecord.body (r : ResourceRecord) : List UInt8 :=
  toBe 2 r.rtype ++ toBe 2 r.rclass ++ toBe 4 r.ttl ++ toBe 2 r.data.length ++ r.data

/-- The fields of a record fit the bytes they are written in. -/
structure ResourceRecord.Fits (r : ResourceRecord) : Prop where
  rtype : r.rtype < 2 ^ 16
  rclass : r.rclass < 2 ^ 16
  ttl : r.ttl < 2 ^ 32
  data : r.data.length < 2 ^ 16

/-- The records stand in a row from `start`. -/
inductive Records (message : Message) : ℕ → List ResourceRecord → Prop
  | none {start : ℕ} : Records message start []
  | more {start after : ℕ} {r : ResourceRecord} {rs : List ResourceRecord} (fits : r.Fits)
      (name : Name message start r.owner after) (h : Stands message after r.body)
      (rest : Records message (after + r.body.length) rs) : Records message start (r :: rs)

/-- A reply: the header with its counts, the questions, the answers, and whatever follows. -/
structure Reply (message : Message) (questions : ℕ) (answers : List ResourceRecord) : Prop where
  header : ∃ id flags others : List UInt8, Stands message 0
    (id ++ flags ++ toBe 2 questions ++ toBe 2 answers.length ++ others) ∧
      id.length = 2 ∧ flags.length = 2 ∧ others.length = 4
  counts : questions < 2 ^ 16 ∧ answers.length < 2 ^ 16
  body : ∃ start, Questions message questions HEADER_LEN start ∧ Records message start answers

/-- A query: a header that counts a question, and the first question. -/
structure Asks (message : Message) (labels : List (List UInt8)) : Prop where
  header : ∃ (id flags others : List UInt8) (questions : ℕ),
    Stands message 0 (id ++ flags ++ toBe 2 questions ++ others) ∧
      id.length = 2 ∧ flags.length = 2 ∧ others.length = 6 ∧ 0 < questions ∧ questions < 2 ^ 16
  question : ∃ after qtype qclass, Name message HEADER_LEN labels after ∧
    Stands message after (toBe 2 qtype ++ toBe 2 qclass) ∧ qtype < 2 ^ 16 ∧ qclass < 2 ^ 16

/-! ### What it says -/

/-- A label as it is compared: its ASCII capitals made small. -/
def labelText (label : List UInt8) : List Char := label.map fun b => asChar (byteToAsciiLowercase b)

/-- The labels with a dot between each and the next. -/
def dotted (labels : List (List UInt8)) : String :=
  String.ofList (List.intercalate ['.'] (labels.map labelText))

/-- The address a record carries: a class IN record of type A with four bytes or of type AAAA with
sixteen. -/
def ResourceRecord.address (r : ResourceRecord) : Option IpAddr :=
  if r.rclass = CLASS_IN ∧ r.rtype = TYPE_A ∧ r.data.length = 4 then
    some (.v4 (BitVec.ofNat 32 (ofBe 0 r.data)))
  else if r.rclass = CLASS_IN ∧ r.rtype = TYPE_AAAA ∧ r.data.length = 16 then
    some (.v6 (BitVec.ofNat 128 (ofBe 0 r.data)))
  else none

def ResourceRecord.answer (r : ResourceRecord) : Option Record :=
  r.address.map fun address => ⟨dotted r.owner, address, r.ttl⟩

/-! ### Reading what stands there -/

variable {message : Message} {start : ℕ}

lemma Stands.bound {bytes : List UInt8} (h : Stands message start bytes) :
    start + bytes.length ≤ message.length := by
  obtain ⟨before, after, rfl, rfl⟩ := h
  simp only [List.length_append]
  omega

lemma Stands.take {bytes : List UInt8} (h : Stands message start bytes) :
    (message.drop start).take bytes.length = bytes := by
  obtain ⟨before, after, rfl, rfl⟩ := h
  rw [List.append_assoc, List.drop_left, List.take_left]

lemma Stands.slice {bytes : List UInt8} (h : Stands message start bytes) :
    slice message start bytes.length = some bytes := by
  rw [Dns.slice, if_pos h.bound, h.take]

lemma stands_iff {bytes : List UInt8} :
    Stands message start bytes ↔ Dns.slice message start bytes.length = some bytes := by
  refine ⟨Stands.slice, fun h => ?_⟩
  unfold Dns.slice at h
  split_ifs at h with hbound
  have htake : (message.drop start).take bytes.length = bytes := Option.some.inj h
  refine ⟨message.take start, message.drop (start + bytes.length), ?_, ?_⟩
  · calc message = message.take start ++ message.drop start := (List.take_append_drop _ _).symm
      _ = message.take start ++
          ((message.drop start).take bytes.length ++ (message.drop start).drop bytes.length) := by
        rw [List.take_append_drop bytes.length]
      _ = message.take start ++ bytes ++ message.drop (start + bytes.length) := by
        rw [htake, List.drop_drop, List.append_assoc]
  · rw [List.length_take]
    omega

instance (message : Message) (start : ℕ) (bytes : List UInt8) :
    Decidable (Stands message start bytes) := decidable_of_iff _ stands_iff.symm

lemma Stands.left {bytes more : List UInt8} (h : Stands message start (bytes ++ more)) :
    Stands message start bytes := by
  obtain ⟨before, after, rfl, hlen⟩ := h
  exact ⟨before, more ++ after, by simp only [List.append_assoc], hlen⟩

lemma Stands.right {bytes more : List UInt8} (h : Stands message start (bytes ++ more)) :
    Stands message (start + bytes.length) more := by
  obtain ⟨before, after, rfl, rfl⟩ := h
  exact ⟨before ++ bytes, after, by simp only [List.append_assoc], by rw [List.length_append]⟩

lemma Stands.head {b : UInt8} {bytes : List UInt8} (h : Stands message start (b :: bytes)) :
    message[start]? = some b := by
  obtain ⟨before, after, rfl, rfl⟩ := h
  simp

/-- A number that fits its bytes is read back. -/
lemma fromBeBytes_toBe {width n : ℕ} (h : n < 256 ^ width) : fromBeBytes (toBe width n) = n := by
  have hread : ofBe 0 (toBe width n) = n % 256 ^ width := by
    rw [ofBe_toBe]
    simp
  rw [← Nat.mod_eq_of_lt h]
  exact (Nat.mod_eq_of_lt h).symm ▸ hread

lemma Stands.readU16 {n : ℕ} (h : Stands message start (toBe 2 n)) (hn : n < 2 ^ 16) :
    readU16 message start = some n := by
  have hslice : Dns.slice message start 2 = some (toBe 2 n) := by
    simpa using h.slice
  rw [Dns.readU16, hslice, Option.map_some, fromBeBytes_toBe hn]

lemma Stands.readU32 {n : ℕ} (h : Stands message start (toBe 4 n)) (hn : n < 2 ^ 32) :
    readU32 message start = some n := by
  have hslice : Dns.slice message start 4 = some (toBe 4 n) := by
    simpa using h.slice
  rw [Dns.readU32, hslice, Option.map_some, fromBeBytes_toBe hn]

/-! ### Reading a name -/

lemma pointer_mask : ∀ n : Fin 256,
    (UInt8.ofNat n.val &&& 0xc0 = 0xc0 ↔ 192 ≤ n.val) := by decide +kernel

lemma nameStep_root {s : NameReader} (h : Stands message s.pos [0]) :
    nameStep message s = .inr (.ok (String.ofList s.name, s.after.getD (s.pos + 1))) := by
  simp only [nameStep, h.head]
  rfl

lemma nameStep_label {s : NameReader} {label : List UInt8} (hpos : 0 < label.length)
    (hmax : label.length ≤ MAX_LABEL)
    (h : Stands message s.pos (UInt8.ofNat label.length :: label))
    (hseen : s.seen + (label.length + 1) ≤ MAX_NAME) :
    nameStep message s = .inl (s.push label label.length) := by
  have hsmall : label.length < 256 := lt_of_le_of_lt hmax (by decide)
  have hmask : ¬ UInt8.ofNat label.length &&& 0xc0 = 0xc0 := by
    rw [pointer_mask ⟨label.length, hsmall⟩]
    exact Nat.not_le.2 (lt_of_le_of_lt hmax (by decide))
  have hnat : (UInt8.ofNat label.length).toNat = label.length := by
    rw [UInt8.toNat_ofNat']
    exact Nat.mod_eq_of_lt hsmall
  have hzero : UInt8.ofNat label.length ≠ 0 := by
    intro hzero
    rw [hzero] at hnat
    exact absurd hnat.symm (Nat.ne_of_gt hpos)
  have hslice : slice message (s.pos + 1) label.length = some label :=
    (@Stands.right _ _ [UInt8.ofNat label.length] _ h).slice
  simp only [nameStep, h.head, if_neg hmask, if_neg hzero, hnat, labelStep,
    if_neg (Nat.not_lt.2 hmax), if_neg (Nat.not_lt.2 hseen), hslice]

lemma nameStep_pointer {s : NameReader} {target : ℕ} (hback : target < s.pos)
    (hmax : target < 0x4000) (h : Stands message s.pos (toBe 2 (0xc000 + target)))
    (hjumps : s.jumps + 1 ≤ MAX_JUMPS) : nameStep message s = .inl (s.jump target) := by
  have hread : readU16 message s.pos = some (0xc000 + target) := h.readU16 (by omega)
  have hhead : message[s.pos]? = some (UInt8.ofNat ((0xc000 + target) / 256 ^ 1)) := h.head
  have hsmall : (0xc000 + target) / 256 ^ 1 < 256 := by omega
  have hmask : UInt8.ofNat ((0xc000 + target) / 256 ^ 1) &&& 0xc0 = 0xc0 := by
    rw [pointer_mask ⟨_, hsmall⟩]
    show 192 ≤ (0xc000 + target) / 256 ^ 1
    omega
  have hmod : (0xc000 + target) % 0x4000 = target := by omega
  have hinside : ¬ message.length ≤ target := by
    have hbound := h.bound
    omega
  simp only [nameStep, hhead, if_pos hmask, pointerStep, hread, hmod, if_neg hinside,
    if_neg (Nat.not_le.2 hback), if_neg (Nat.not_lt.2 hjumps)]

/-- A name with more labels read behind it. -/
def joined (name : List Char) (labels : List (List UInt8)) : List Char :=
  labels.foldl (fun name label => name ++ (if name.isEmpty then [] else ['.']) ++ labelText label)
    name

/-- **The reader follows the format**: from any state it reads the labels that stand there, and the
first jump decides where the name ended. -/
lemma nameLoop_run {labels : List (List UInt8)} {jumps size after : ℕ}
    (h : NameAt message start labels jumps size after) (s : NameReader) (hs : s.pos = start)
    (hjumps : s.jumps + jumps ≤ MAX_JUMPS) (hsize : s.seen + size ≤ MAX_NAME) :
    (nameLoop message).run s = .ok (String.ofList (joined s.name labels), s.after.getD after) := by
  induction h generalizing s with
  | root h =>
    subst hs
    exact Loop.run_stop _ (nameStep_root h)
  | @label start jumps size after label labels hpos hmax h rest ih =>
    subst hs
    rw [Loop.run_step _ (nameStep_label hpos hmax h (by omega))]
    rw [ih (s.push label label.length) rfl hjumps (by simp only [NameReader.push]; omega)]
    rfl
  | @pointer start target jumps size after labels hback hmax h rest ih =>
    subst hs
    rw [Loop.run_step _ (nameStep_pointer hback hmax h (by omega))]
    rw [ih (s.jump target) rfl (by simp only [NameReader.jump]; omega) hsize]
    rfl

/-! ### Names -/

lemma NameAt.labels_ne {labels : List (List UInt8)} {jumps size after : ℕ}
    (h : NameAt message start labels jumps size after) : ∀ label ∈ labels, label ≠ [] := by
  induction h with
  | root h => exact nofun
  | label hpos hmax h rest ih =>
    exact List.forall_mem_cons.2 ⟨List.ne_nil_of_length_pos hpos, ih⟩
  | pointer hback hmax h rest ih => exact ih

lemma joined_ne {name : List Char} (hname : name ≠ []) (labels : List (List UInt8)) :
    joined name labels = List.intercalate ['.'] (name :: labels.map labelText) := by
  induction labels generalizing name with
  | nil => simp [joined]
  | cons label labels ih =>
    have hdot : (if name.isEmpty then [] else ['.']) = ['.'] := by
      rw [if_neg]
      simpa using hname
    rw [joined, List.foldl_cons, hdot, ← joined, ih (by simp), List.map_cons]
    cases labels with
    | nil => simp
    | cons next labels => simp [List.intercalate_cons_cons]

lemma joined_nil {labels : List (List UInt8)} (h : ∀ label ∈ labels, label ≠ []) :
    String.ofList (joined [] labels) = dotted labels := by
  cases labels with
  | nil => rfl
  | cons label labels =>
    have hlabel : labelText label ≠ [] := by
      simpa [labelText] using h label (List.mem_cons_self ..)
    rw [dotted, List.map_cons, ← joined_ne hlabel]
    rfl

/-- **A name is read as it stands there**, and what follows it begins where it ended as written. -/
theorem readName_name {labels : List (List UInt8)} {after : ℕ}
    (h : Name message start labels after) :
    readName message start = .ok (dotted labels, after) := by
  obtain ⟨jumps, size, hname, hjumps, hsize⟩ := h
  rw [readName, nameLoop_run hname _ rfl (by simpa using hjumps) (by simp only; omega),
    joined_nil hname.labels_ne]
  rfl

/-! ### Questions and records -/

lemma skipQuestions_questions {n stop : ℕ} (h : Questions message n start stop) :
    skipQuestions message n start = .ok stop := by
  induction h with
  | none => rfl
  | more name h rest ih =>
    rw [skipQuestions, readName_name name]
    exact ih

lemma address_eq (r : ResourceRecord) : r.address =
    if r.rclass ≠ CLASS_IN then none
    else if r.rtype = TYPE_A ∧ r.data.length = 4 then
      some (.v4 (BitVec.ofNat 32 (fromBeBytes r.data)))
    else if r.rtype = TYPE_AAAA ∧ r.data.length = 16 then
      some (.v6 (BitVec.ofNat 128 (fromBeBytes r.data)))
    else none := by
  by_cases hclass : r.rclass = CLASS_IN
  · simp [ResourceRecord.address, hclass, fromBeBytes, ofBe]
  · simp [ResourceRecord.address, hclass]

lemma readRecord_stands {r : ResourceRecord} {after : ℕ} (fits : r.Fits)
    (name : Name message start r.owner after) (h : Stands message after r.body) :
    readRecord message start = .ok (r.answer, after + r.body.length) := by
  obtain ⟨rtype, rclass, ttl, data⟩ := fits
  have hdata := h.right
  have hlength := h.left.right
  have httl := h.left.left.right
  have hclass := h.left.left.left.right
  have htype := h.left.left.left.left
  simp only [List.length_append, length_toBe] at hdata hlength httl hclass
  have hreadType : readU16 message after = some r.rtype := htype.readU16 rtype
  have hreadClass : readU16 message (after + 2) = some r.rclass := hclass.readU16 rclass
  have hreadTtl : readU32 message (after + 4) = some r.ttl := httl.readU32 ttl
  have hreadLength : readU16 message (after + 8) = some r.data.length := hlength.readU16 data
  have hslice : slice message (after + 10) r.data.length = some r.data := hdata.slice
  have hbody : r.body.length = 10 + r.data.length := by
    simp only [ResourceRecord.body, List.length_append, length_toBe]
  simp only [readRecord, readName_name name, hreadType, hreadClass, hreadTtl, hreadLength, hslice,
    orTruncated, ok_bind, hbody, ResourceRecord.answer, address_eq, ← Nat.add_assoc]
  rfl

lemma readRecords_records {rs : List ResourceRecord} (h : Records message start rs) :
    readRecords message rs.length start = (rs.filterMap ResourceRecord.answer, none) := by
  induction h with
  | none => rfl
  | @more start after r rs fits name h rest ih =>
    rw [List.length_cons, readRecords, readRecord_stands fits name h]
    simp only [ih]
    cases hr : r.answer with
    | none => simp [hr]
    | some record => simp [hr]

/-- **A well-formed reply is read exactly**: its class IN records of type A with four bytes and
AAAA with sixteen, in the order of the message, each with its owner name, address and time to
live. -/
theorem readAnswers_reply {questions : ℕ} {answers : List ResourceRecord}
    (h : Reply message questions answers) :
    readAnswers message = .ok (answers.filterMap ResourceRecord.answer) := by
  obtain ⟨⟨id, flags, others, hheader, hid, hflags, hothers⟩, ⟨hq, ha⟩, pos, hquestions,
    hrecords⟩ := h
  have hreadQuestions := hheader.left.left.right.take
  have hreadAnswers := hheader.left.right.take
  have hbound := hheader.bound
  simp only [List.length_append, length_toBe, hid, hflags] at hreadQuestions
  simp only [List.length_append, length_toBe, hid, hflags] at hreadAnswers
  simp only [List.length_append, length_toBe, hid, hflags, hothers] at hbound
  have hread : readHeader message =
      .ok ⟨fromBeBytes ((message.drop 0).take 2), questions, answers.length⟩ := by
    rw [readHeader, if_neg (by unfold HEADER_LEN; omega), hreadQuestions, hreadAnswers,
      fromBeBytes_toBe hq, fromBeBytes_toBe ha]
  simp only [readAnswers, hread, skipQuestions_questions hquestions, readRecords_records hrecords,
    ok_bind]
  rfl

/-- **A query is read as it asks**, by the dotted name of its first question. -/
theorem readQuery_asks {labels : List (List UInt8)} (h : Asks message labels) :
    ∃ q, readQuery message = .ok q ∧ q.name = dotted labels := by
  obtain ⟨⟨id, flags, others, questions, hheader, hid, hflags, hothers, hpos, hq⟩, after, qtype, qclass,
    hname, hquestion, htype, hclass⟩ := h
  have hreadQuestions := hheader.left.right.take
  have hbound := hheader.bound
  have hreadClass := hquestion.right
  simp only [List.length_append, length_toBe, hid, hflags] at hreadQuestions
  simp only [List.length_append, length_toBe, hid, hflags, hothers] at hbound
  rw [length_toBe] at hreadClass
  have hread : readHeader message = .ok ⟨fromBeBytes ((message.drop 0).take 2), questions,
      fromBeBytes ((message.drop 6).take 2)⟩ := by
    rw [readHeader, if_neg (by unfold HEADER_LEN; omega), hreadQuestions, fromBeBytes_toBe hq]
  refine ⟨⟨fromBeBytes ((message.drop 0).take 2), dotted labels, qtype, qclass⟩, ?_, rfl⟩
  simp only [readQuery, hread, ok_bind, if_neg (Nat.ne_of_gt hpos), readName_name hname,
    hquestion.left.readU16 htype, hreadClass.readU16 hclass, orTruncated]
  rfl

/-- The question `a.b`, answered by its alias `c.b` with the address 1.2.3.4. -/
def aliasReply : Message :=
  [0, 7, 0x81, 0x80, 0, 1, 0, 2, 0, 0, 0, 0] ++ [1, 97, 1, 66, 0] ++ [0, 1, 0, 1] ++
  [0xc0, 12] ++ [0, 5, 0, 1, 0, 0, 1, 44, 0, 4] ++ [1, 67, 0xc0, 14] ++
  [0xc0, 33] ++ [0, 1, 0, 1, 0, 0, 0, 60, 0, 4] ++ [1, 2, 3, 4]

def aliasRecords : List ResourceRecord :=
  [⟨[[97], [66]], 5, 1, 300, [1, 67, 0xc0, 14]⟩, ⟨[[67], [66]], 1, 1, 60, [1, 2, 3, 4]⟩]

theorem readAnswers_reply_alias :
    readAnswers aliasReply = .ok (aliasRecords.filterMap ResourceRecord.answer) := by
  have hb : NameAt aliasReply 14 [[66]] 0 2 17 :=
    @NameAt.label _ 14 0 0 17 [66] [] (by decide) (by decide) (by decide) (.root (by decide))
  have hab : NameAt aliasReply 12 [[97], [66]] 0 4 17 :=
    @NameAt.label _ 12 0 2 17 [97] [[66]] (by decide) (by decide) (by decide) hb
  have hcb : NameAt aliasReply 33 [[67], [66]] 1 4 37 :=
    @NameAt.label _ 33 1 2 37 [67] [[66]] (by decide) (by decide) (by decide)
      (@NameAt.pointer _ 35 14 0 2 17 [[66]] (by decide) (by decide) (by decide) hb)
  have hfirst : Name aliasReply 21 [[97], [66]] 23 :=
    ⟨1, 4, @NameAt.pointer _ 21 12 0 4 17 _ (by decide) (by decide) (by decide) hab,
      by decide, by decide⟩
  have hsecond : Name aliasReply 37 [[67], [66]] 39 :=
    ⟨2, 4, @NameAt.pointer _ 37 33 1 4 37 _ (by decide) (by decide) (by decide) hcb,
      by decide, by decide⟩
  have hquestion : Questions aliasReply 1 12 21 :=
    @Questions.more _ 0 12 17 21 1 1 _ ⟨0, 4, hab, by decide, by decide⟩ (by decide) .none
  refine readAnswers_reply ⟨⟨[0, 7], [0x81, 0x80], [0, 0, 0, 0], ?_⟩, ?_, 21, hquestion, ?_⟩
  · decide
  · decide
  · refine .more ⟨by decide, by decide, by decide, by decide⟩ hfirst (by decide) ?_
    exact .more ⟨by decide, by decide, by decide, by decide⟩ hsecond (by decide) .none

end Masqr.Dns
