import Mathlib
import Masqr.Dns.Wire

/-!
What the reader of names accepts stands there, and how long a name it accepts may be.
-/

namespace Masqr.Dns

open Masqr.Lib

variable {message : Message} {start : ℕ}

/-! ### The steps, told from the bytes -/

lemma slice_eq_some {pos length : ℕ} {bytes : List UInt8}
    (h : slice message pos length = some bytes) :
    bytes.length = length ∧ Stands message pos bytes := by
  have hlength : bytes.length = length := by
    unfold slice at h
    split_ifs at h with hbound
    obtain rfl := Option.some.inj h
    rw [List.length_take, List.length_drop]
    omega
  subst hlength
  exact ⟨rfl, stands_iff.2 h⟩

lemma Stands.cons {b : UInt8} {bytes : List UInt8} (hb : message[start]? = some b)
    (h : Stands message (start + 1) bytes) : Stands message start (b :: bytes) := by
  obtain ⟨before, after, rfl, hlen⟩ := h
  obtain ⟨init, c, rfl⟩ : ∃ init c, before = init ++ [c] := by
    rcases List.eq_nil_or_concat before with rfl | ⟨init, c, rfl⟩
    · simp at hlen
    · exact ⟨init, c, by simp⟩
  obtain rfl : init.length = start := by simpa using hlen
  obtain rfl : c = b := by simpa using hb
  exact ⟨init, after, by simp, rfl⟩

lemma Stands.byte {b : UInt8} (h : message[start]? = some b) : Stands message start [b] := by
  have hlt := (List.getElem?_eq_some_iff.1 h).1
  refine Stands.cons h ⟨message.take (start + 1), message.drop (start + 1), by simp, ?_⟩
  rw [List.length_take]
  omega

lemma orTruncated_eq_ok {α : Type} {value : Option α} {what : String} {a : α} :
    orTruncated value what = .ok a ↔ value = some a := by
  cases value <;> simp [orTruncated]

/-- Two bytes that spell a number stand there. -/
lemma readU16_eq_some {pos n : ℕ} (h : readU16 message pos = some n) :
    n < 2 ^ 16 ∧ Stands message pos (toBe 2 n) := by
  obtain ⟨bytes, hslice, rfl⟩ := Option.map_eq_some_iff.1 h
  obtain ⟨hlength, hstands⟩ := slice_eq_some hslice
  constructor
  · have hlt := ofBe_lt bytes 0
    rw [hlength] at hlt
    simpa [fromBeBytes, ofBe] using hlt
  · have hbytes : toBe 2 (fromBeBytes bytes) = bytes := hlength ▸ toBe_ofBe bytes 0
    rwa [hbytes]

/-- A byte that marks a pointer begins two that point somewhere. -/
lemma pointer_spelled {pos n : ℕ} {length : UInt8} (hbyte : message[pos]? = some length)
    (hmask : length &&& 0xc0 = 0xc0) (h : readU16 message pos = some n) :
    n % 0x4000 < 0x4000 ∧ Stands message pos (toBe 2 (0xc000 + n % 0x4000)) := by
  obtain ⟨hlt, hstands⟩ := readU16_eq_some h
  have hhead := hstands.head
  rw [hbyte] at hhead
  have hlength : length = UInt8.ofNat (n / 256 ^ 1) := Option.some.inj hhead
  have hhigh : 192 ≤ n / 256 ^ 1 := by
    rw [hlength] at hmask
    exact (pointer_mask ⟨n / 256 ^ 1, by omega⟩).1 hmask
  have hn : 0xc000 + n % 0x4000 = n := by omega
  exact ⟨Nat.mod_lt _ (by decide), hn.symm ▸ hstands⟩

/-- What one turn of the loop finds, where it finds no fault. -/
lemma nameStep_cases (message : Message) (s : NameReader) :
    (∃ problem, nameStep message s = .inr (.error problem)) ∨
    (Stands message s.pos [0] ∧
      nameStep message s = .inr (.ok (String.ofList s.name, s.after.getD (s.pos + 1)))) ∨
    (∃ label : List UInt8, 0 < label.length ∧ label.length ≤ MAX_LABEL ∧
      Stands message s.pos (UInt8.ofNat label.length :: label) ∧
      s.seen + (label.length + 1) ≤ MAX_NAME ∧
      nameStep message s = .inl (s.push label label.length)) ∨
    (∃ target, target < s.pos ∧ target < 0x4000 ∧ Stands message s.pos (toBe 2 (0xc000 + target)) ∧
      s.jumps + 1 ≤ MAX_JUMPS ∧ nameStep message s = .inl (s.jump target)) := by
  cases hbyte : message[s.pos]? with
  | none => exact .inl ⟨.truncated "name", by simp [nameStep, hbyte]⟩
  | some length =>
    have hinside : s.pos < message.length := (List.getElem?_eq_some_iff.1 hbyte).1
    by_cases hmask : length &&& 0xc0 = 0xc0
    · cases hstep : pointerStep message s with
      | error problem => exact .inl ⟨problem, by simp [nameStep, hbyte, hmask, hstep]⟩
      | ok s' =>
        have hnext : nameStep message s = .inl s' := by simp [nameStep, hbyte, hmask, hstep]
        unfold pointerStep at hstep
        dsimp only at hstep
        split at hstep
        · cases hstep
        next n hread =>
        obtain ⟨hmax, hstands⟩ := pointer_spelled hbyte hmask hread
        split_ifs at hstep with hout hback hjumps
        cases hstep
        exact .inr (.inr (.inr ⟨n % 0x4000, by omega, hmax, hstands, by omega, hnext⟩))
    · by_cases hzero : length = 0
      · subst hzero
        have hstands := Stands.byte hbyte
        exact .inr (.inl ⟨hstands, nameStep_root hstands⟩)
      · cases hstep : labelStep message s length.toNat with
        | error problem => exact .inl ⟨problem, by simp [nameStep, hbyte, hmask, hzero, hstep]⟩
        | ok s' =>
          have hnext : nameStep message s = .inl s' := by
            simp [nameStep, hbyte, hmask, hzero, hstep]
          unfold labelStep at hstep
          split_ifs at hstep with hmax hseen
          split at hstep
          · cases hstep
          next label hslice =>
          cases hstep
          obtain ⟨hlength, hlabel⟩ := slice_eq_some hslice
          have hbyte' : UInt8.ofNat label.length = length := by
            rw [hlength]
            exact UInt8.ofNat_toNat
          have hpos : 0 < length.toNat := by
            rw [Nat.pos_iff_ne_zero]
            exact fun h => hzero (UInt8.toNat_inj.mp h)
          refine .inr (.inr (.inl ⟨label, by omega, by omega, ?_, by omega, hlength ▸ hnext⟩))
          rw [hbyte']
          exact Stands.cons hbyte hlabel

/-! ### What is read stands there -/

/-- **What the reader of names returns stands there**: the labels it put together, in no more jumps
than it allows and with no more label bytes than it counts. -/
theorem readName_sound {name : String} {after : ℕ}
    (h : readName message start = .ok (name, after)) :
    ∃ labels jumps size, NameAt message start labels jumps size after ∧ jumps ≤ MAX_JUMPS ∧
      size ≤ MAX_NAME ∧ name = dotted labels := by
  have hrun := (nameLoop message).run_rule
    (fun s r => ∀ name after, r = .ok (name, after) → s.jumps ≤ MAX_JUMPS → s.seen ≤ MAX_NAME →
      ∃ labels jumps size stop, NameAt message s.pos labels jumps size stop ∧
        s.jumps + jumps ≤ MAX_JUMPS ∧ s.seen + size ≤ MAX_NAME ∧
        name = String.ofList (joined s.name labels) ∧ after = s.after.getD stop)
    (fun s r hb name after hr hjumps hseen => ?stop)
    (fun s s' r hb ih name after hr hjumps hseen => ?step)
    ⟨[], start, none, 0, 0⟩ name after h (Nat.zero_le _) (Nat.zero_le _)
  · obtain ⟨labels, jumps, size, stop, hname, hjumps, hsize, rfl, rfl⟩ := hrun
    refine ⟨labels, jumps, size, hname, by simpa using hjumps, by simpa using hsize, ?_⟩
    exact joined_nil hname.labels_ne
  case stop =>
    change nameStep message s = _ at hb
    subst hr
    rcases nameStep_cases message s with
      ⟨problem, h⟩ | ⟨hroot, h⟩ | ⟨label, -, -, -, -, h⟩ | ⟨target, -, -, -, -, h⟩
    · rw [h] at hb
      cases hb
    · rw [h] at hb
      cases hb
      exact ⟨[], 0, 0, s.pos + 1, .root hroot, hjumps, hseen, rfl, rfl⟩
    · rw [h] at hb
      cases hb
    · rw [h] at hb
      cases hb
  case step =>
    change nameStep message s = _ at hb
    rcases nameStep_cases message s with
      ⟨problem, h⟩ | ⟨hroot, h⟩ | ⟨label, hpos, hmax, hstands, hfits, h⟩ |
      ⟨target, hback, hmax, hstands, hfits, h⟩
    · rw [h] at hb
      cases hb
    · rw [h] at hb
      cases hb
    · rw [h] at hb
      cases hb
      obtain ⟨labels, jumps, size, stop, hname, hj, hs, hn, ha⟩ := ih name after hr hjumps hfits
      simp only [NameReader.push] at hs
      exact ⟨label :: labels, jumps, label.length + 1 + size, stop,
        .label hpos hmax hstands hname, hj, by omega, hn, ha⟩
    · rw [h] at hb
      cases hb
      obtain ⟨labels, jumps, size, stop, hname, hj, hs, hn, ha⟩ := ih name after hr hfits hseen
      simp only [NameReader.jump] at hj
      exact ⟨labels, jumps + 1, size, s.pos + 2, .pointer hback hmax hstands hname, by omega, hs,
        hn, ha⟩

/-! ### One name stands at one place -/

lemma Stands.same {bytes bytes' : List UInt8} (h : Stands message start bytes)
    (h' : Stands message start bytes') (hlength : bytes.length = bytes'.length) :
    bytes = bytes' := by
  rw [← h.take, hlength, h'.take]

/-- The number the byte at a place spells. -/
def byteAt (message : Message) (start : ℕ) : Option ℕ := (message[start]?).map UInt8.toNat

lemma byteAt_root (h : Stands message start [0]) : byteAt message start = some 0 := by
  rw [byteAt, h.head]
  rfl

lemma byteAt_label {label : List UInt8} (hmax : label.length ≤ MAX_LABEL)
    (h : Stands message start (UInt8.ofNat label.length :: label)) :
    byteAt message start = some label.length := by
  rw [byteAt, h.head, Option.map_some, UInt8.toNat_ofNat',
    Nat.mod_eq_of_lt (lt_of_le_of_lt hmax (by decide))]

/-- The first byte of a pointer is greater than any length. -/
lemma byteAt_pointer {target : ℕ} (hmax : target < 0x4000)
    (h : Stands message start (toBe 2 (0xc000 + target))) :
    ∃ n, byteAt message start = some n ∧ MAX_LABEL < n := by
  refine ⟨(UInt8.ofNat ((0xc000 + target) / 256 ^ 1)).toNat, ?_, ?_⟩
  · rw [byteAt, show message[start]? = _ from h.head]
    rfl
  · rw [UInt8.toNat_ofNat', MAX_LABEL]
    omega

/-- Two pointers at one place lead to the same. -/
lemma pointer_same {target target' : ℕ} (hmax : target < 0x4000) (hmax' : target' < 0x4000)
    (h : Stands message start (toBe 2 (0xc000 + target)))
    (h' : Stands message start (toBe 2 (0xc000 + target'))) : target = target' := by
  have hbytes := congrArg fromBeBytes (h.same h' (by simp))
  rw [fromBeBytes_toBe (by omega), fromBeBytes_toBe (by omega)] at hbytes
  exact Nat.add_left_cancel hbytes

/-- The labels, the jumps, the size and the end of a name are told by the bytes. -/
theorem NameAt.unique {labels labels' : List (List UInt8)}
    {jumps jumps' size size' after after' : ℕ}
    (h : NameAt message start labels jumps size after)
    (h' : NameAt message start labels' jumps' size' after') :
    labels = labels' ∧ jumps = jumps' ∧ size = size' ∧ after = after' := by
  induction h generalizing labels' jumps' size' after' with
  | root h =>
    have hzero := byteAt_root h
    cases h' with
    | root h' => exact ⟨rfl, rfl, rfl, rfl⟩
    | label hpos hmax h' rest =>
      have := Option.some.inj (hzero.symm.trans (byteAt_label hmax h'))
      omega
    | pointer hback hmax h' rest =>
      obtain ⟨n, hn, hlt⟩ := byteAt_pointer hmax h'
      have := Option.some.inj (hzero.symm.trans hn)
      omega
  | label hpos hmax h rest ih =>
    have hlabel := byteAt_label hmax h
    cases h' with
    | root h' =>
      have := Option.some.inj (hlabel.symm.trans (byteAt_root h'))
      omega
    | label hpos' hmax' h' rest' =>
      have hlength := Option.some.inj (hlabel.symm.trans (byteAt_label hmax' h'))
      obtain rfl := (List.cons.inj (h.same h' (by simp [hlength]))).2
      obtain ⟨rfl, rfl, rfl, rfl⟩ := ih rest'
      exact ⟨rfl, rfl, rfl, rfl⟩
    | pointer hback' hmax' h' rest' =>
      obtain ⟨n, hn, hlt⟩ := byteAt_pointer hmax' h'
      have := Option.some.inj (hlabel.symm.trans hn)
      omega
  | pointer hback hmax h rest ih =>
    obtain ⟨n, hn, hlt⟩ := byteAt_pointer hmax h
    cases h' with
    | root h' =>
      have := Option.some.inj (hn.symm.trans (byteAt_root h'))
      omega
    | label hpos' hmax' h' rest' =>
      have := Option.some.inj (hn.symm.trans (byteAt_label hmax' h'))
      omega
    | pointer hback' hmax' h' rest' =>
      obtain rfl := pointer_same hmax hmax' h h'
      obtain ⟨rfl, rfl, rfl, rfl⟩ := ih rest'
      exact ⟨rfl, rfl, rfl, rfl⟩

/-- A name ends behind where it begins, and inside the message. -/
lemma NameAt.bounds {labels : List (List UInt8)} {jumps size after : ℕ}
    (h : NameAt message start labels jumps size after) :
    start < after ∧ after ≤ message.length := by
  induction h with
  | root h => exact ⟨by omega, by simpa using h.bound⟩
  | label hpos hmax h rest ih => exact ⟨by omega, ih.2⟩
  | pointer hback hmax h rest ih => exact ⟨by omega, by simpa using h.bound⟩

/-- What the reader of names returns, told from the bytes. -/
theorem readName_eq_ok {name : String} {after : ℕ} : readName message start = .ok (name, after) ↔
    ∃ labels jumps size, NameAt message start labels jumps size after ∧ jumps ≤ MAX_JUMPS ∧
      size ≤ MAX_NAME ∧ name = dotted labels := by
  refine ⟨readName_sound, ?_⟩
  rintro ⟨labels, jumps, size, hname, hjumps, hsize, rfl⟩
  rw [← joined_nil hname.labels_ne]
  exact nameLoop_run hname ⟨[], start, none, 0, 0⟩ rfl (by simpa using hjumps)
    (by simpa using hsize)

lemma readName_bounds {name : String} {after : ℕ} (h : readName message start = .ok (name, after)) :
    start < after ∧ after ≤ message.length := by
  obtain ⟨labels, jumps, size, hname, -⟩ := readName_sound h
  exact hname.bounds

/-! ### The limit -/

/-- The limit of names is the protocol's: the wire form of a name that is read takes no more than
the bytes a name may, and a name that takes no more is read. -/
structure Limits (message : Message) (start : ℕ) : Prop where
  read : ∀ name after, readName message start = .ok (name, after) →
    ∃ labels jumps size, NameAt message start labels jumps size after ∧ name = dotted labels ∧
      size + 1 ≤ MAX_NAME
  kept : ∀ labels jumps size after, NameAt message start labels jumps size after →
    jumps ≤ MAX_JUMPS → size + 1 ≤ MAX_NAME → readName message start = .ok (dotted labels, after)

lemma longest_past_limit {labels : List (List UInt8)} {jumps after : ℕ}
    (h : NameAt message start labels jumps MAX_NAME after) (hjumps : jumps ≤ MAX_JUMPS) :
    ¬Limits message start := by
  rintro ⟨hread, -⟩
  obtain ⟨labels', jumps', size', hname', -, hsize⟩ :=
    hread _ _ (readName_eq_ok.2 ⟨labels, jumps, MAX_NAME, h, hjumps, le_rfl, rfl⟩)
  obtain ⟨-, -, rfl, -⟩ := h.unique hname'
  omega

/-- **The limit of names is the protocol's but for one length**: a name whose wire form takes one
byte more than a name may is read too. -/
theorem limits_iff (message : Message) (start : ℕ) : Limits message start ↔
    ¬∃ labels jumps after,
      NameAt message start labels jumps MAX_NAME after ∧ jumps ≤ MAX_JUMPS := by
  constructor
  · rintro hlimits ⟨labels, jumps, after, hname, hjumps⟩
    exact longest_past_limit hname hjumps hlimits
  · intro hone
    refine ⟨fun name after h => ?_, fun labels jumps size after h hjumps hsize =>
      readName_name ⟨jumps, size, h, hjumps, hsize⟩⟩
    obtain ⟨labels, jumps, size, hname, hjumps, hsize, rfl⟩ := readName_sound h
    refine ⟨labels, jumps, size, hname, rfl, ?_⟩
    rcases Nat.lt_or_ge size MAX_NAME with hlt | hge
    · exact hlt
    · obtain rfl : size = MAX_NAME := Nat.le_antisymm hsize hge
      exact absurd ⟨labels, jumps, after, hname, hjumps⟩ hone

/-- So many bytes of one letter, with their length before them. -/
def letters (n : ℕ) : List UInt8 := UInt8.ofNat n :: List.replicate n 97

/-- A query for a name of 63, 63, 63 and 62 letters, which takes 256 bytes. -/
def longQuery : Message :=
  [0, 7, 1, 0, 0, 1, 0, 0, 0, 0, 0, 0] ++ letters 63 ++ letters 63 ++ letters 63 ++ letters 62 ++
    [0, 0, 1, 0, 1]

lemma longQuery_name : ∃ labels, NameAt longQuery 12 labels 0 MAX_NAME 268 := by
  have hlast : NameAt longQuery 204 [List.replicate 62 97] 0 63 268 :=
    @NameAt.label _ 204 0 0 268 (List.replicate 62 97) [] (by decide) (by decide)
      (by decide +kernel) (.root (by decide +kernel))
  have hthird : NameAt longQuery 140 [List.replicate 63 97, List.replicate 62 97] 0 127 268 :=
    @NameAt.label _ 140 0 63 268 (List.replicate 63 97) _ (by decide) (by decide)
      (by decide +kernel) hlast
  have hsecond := @NameAt.label longQuery 76 0 127 268 (List.replicate 63 97) _ (by decide)
    (by decide) (by decide +kernel) hthird
  have hfirst := @NameAt.label longQuery 12 0 191 268 (List.replicate 63 97) _ (by decide)
    (by decide) (by decide +kernel) hsecond
  exact ⟨_, hfirst⟩

/-- The name of 256 bytes is read. -/
theorem longQuery_past_limit :
    (∃ name, readName longQuery 12 = .ok (name, 12 + 256)) ∧ ¬Limits longQuery 12 := by
  obtain ⟨labels, hname⟩ := longQuery_name
  exact ⟨⟨_, readName_eq_ok.2 ⟨labels, 0, MAX_NAME, hname, by decide, le_rfl, rfl⟩⟩,
    longest_past_limit hname (by decide)⟩

end Masqr.Dns
