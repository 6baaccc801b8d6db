import Mathlib
import Masqr.Transport.Qpack

/-!
Writing a field section: each field in the smallest form that needs no dynamic table, and that
the decoder reads back what was written.
-/

namespace Masqr.Transport.Qpack

open Masqr.Lib

/-- The bytes that continue an integer past its prefix, seven bits a byte. -/
def putContinued (rest : ℕ) : List UInt8 :=
  if 0x80 ≤ rest then (0x80 ||| UInt8.ofNat (rest % 128)) :: putContinued (rest / 128)
  else [UInt8.ofNat rest]
termination_by rest

/-- A prefixed integer; the flags fill the bits above the prefix. -/
def putInt (out : List UInt8) (width : ℕ) (flags : UInt8) (value : ℕ) : List UInt8 :=
  let max := 2 ^ width - 1
  if value < max then out ++ [flags ||| UInt8.ofNat value]
  else out ++ [flags ||| UInt8.ofNat max] ++ putContinued (value - max)

/-- A plain string literal: no Huffman flag and a seven-bit length, then the bytes. -/
def putString (out value : List UInt8) : List UInt8 :=
  putInt out 7 0 value.length ++ value

/-- One field: an index if the static table has it whole, a reference and a value if it has its
name, and both written out if not. -/
def putField (out : List UInt8) (field : Field) : List UInt8 :=
  match STATIC.findIdx? (· = field) with
  | some index => putInt out 6 0b11000000 index
  | none =>
    match STATIC.findIdx? (·.1 = field.1) with
    | some index => putString (putInt out 4 0b01010000 index) field.2
    | none => putString (putInt out 3 0b00100000 field.1.length ++ field.1) field.2

/-- Write a field section. -/
def encode (fields : List Field) (out : List UInt8) : List UInt8 :=
  fields.foldl putField (out ++ [0x00, 0x00])

/-! ### Integers -/

/-- Bits below the flags do not touch them. -/
lemma flags_or {flags : UInt8} {width high low : ℕ} (hwidth : width ≤ 8)
    (hflags : flags.toNat = 2 ^ width * high) (hlow : low < 2 ^ width) :
    (flags ||| UInt8.ofNat low).toNat / 2 ^ width = high ∧
      (flags ||| UInt8.ofNat low).toNat % 2 ^ width = low := by
  have hpow : 2 ^ width ≤ 2 ^ 8 := Nat.pow_le_pow_right (by omega) hwidth
  have hbyte : (UInt8.ofNat low).toNat = low := by
    rw [UInt8.toNat_ofNat', Nat.mod_eq_of_lt (by omega)]
  have hor : (flags ||| UInt8.ofNat low).toNat = 2 ^ width * high + low := by
    rw [UInt8.toNat_or, hbyte, hflags, Nat.two_pow_add_eq_or_of_lt hlow]
  rw [hor, Nat.mul_add_div (Nat.two_pow_pos width), Nat.div_eq_of_lt hlow, Nat.mul_add_mod,
    Nat.mod_eq_of_lt hlow]
  exact ⟨Nat.add_zero _, rfl⟩

lemma putContinued_continues (rest : ℕ) : Continues (putContinued rest) rest := by
  induction rest using putContinued.induct with
  | case1 rest hmore ih =>
    have hflag : (0x80 : UInt8).toNat = 2 ^ 7 * 1 := rfl
    obtain ⟨hhigh, hlow⟩ := flags_or (by omega) hflag (by omega : rest % 128 < 2 ^ 7)
    have hmarked : 128 ≤ (0x80 ||| UInt8.ofNat (rest % 128)).toNat := by omega
    have hvalue : (0x80 ||| UInt8.ofNat (rest % 128)).toNat % 128 + 128 * (rest / 128) = rest := by
      omega
    have hcontinues := Continues.more hmarked ih
    rw [hvalue] at hcontinues
    rwa [putContinued, if_pos hmore]
  | case2 rest hlast =>
    have hbyte : (UInt8.ofNat rest).toNat = rest := by
      rw [UInt8.toNat_ofNat', Nat.mod_eq_of_lt (by omega)]
    have hunmarked : (UInt8.ofNat rest).toNat < 128 := by omega
    have hcontinues := Continues.last hunmarked
    rw [hbyte] at hcontinues
    rwa [putContinued, if_neg hlast]

lemma putContinued_length {groups rest : ℕ} (h : rest < 2 ^ (7 * (groups + 1))) :
    (putContinued rest).length ≤ groups + 1 := by
  induction groups generalizing rest with
  | zero =>
    rw [putContinued, if_neg (by omega)]
    simp
  | succ groups ih =>
    rw [putContinued]
    split
    · have hpow : 2 ^ (7 * (groups + 1 + 1)) = 128 * 2 ^ (7 * (groups + 1)) := by
        rw [Nat.mul_add 7, Nat.pow_add]
        ring
      have hshort := ih (by omega : rest / 128 < 2 ^ (7 * (groups + 1)))
      rw [List.length_cons]
      omega
    · simp

/-- **A written integer** is one of the grammar, under the flags it was written with. -/
lemma putInt_prefixInt {flags : UInt8} {width high value : ℕ} (hwidth : width ≤ 8)
    (hflags : flags.toNat = 2 ^ width * high) (hvalue : value < 2 ^ 62) (out : List UInt8) :
    ∃ bytes, putInt out width flags value = out ++ bytes ∧ PrefixInt width high bytes value := by
  have hpos : 0 < 2 ^ width := Nat.two_pow_pos width
  by_cases hshort : value < 2 ^ width - 1
  · obtain ⟨hhigh, hlow⟩ := flags_or hwidth hflags (by omega : value < 2 ^ width)
    have hfits : (flags ||| UInt8.ofNat value).toNat % 2 ^ width < 2 ^ width - 1 := by omega
    have hint := PrefixInt.short hfits
    rw [hhigh, hlow] at hint
    exact ⟨[flags ||| UInt8.ofNat value], by rw [putInt, if_pos hshort], hint⟩
  · obtain ⟨hhigh, hlow⟩ := flags_or hwidth hflags (by omega : 2 ^ width - 1 < 2 ^ width)
    have hlength : (putContinued (value - (2 ^ width - 1))).length ≤ 8 + 1 :=
      putContinued_length (by omega)
    have hsum : 2 ^ width - 1 + (value - (2 ^ width - 1)) = value := by omega
    have hint := PrefixInt.long hlow (putContinued_continues (value - (2 ^ width - 1))) hlength
    rw [hhigh, hsum] at hint
    refine ⟨(flags ||| UInt8.ofNat (2 ^ width - 1)) :: putContinued (value - (2 ^ width - 1)), ?_,
      hint⟩
    rw [putInt, if_neg hshort, List.append_assoc, List.singleton_append]

/-! ### Fields -/

lemma putString_prefixString {value : List UInt8} (hvalue : value.length < 2 ^ 62)
    (out : List UInt8) :
    ∃ bytes, putString out value = out ++ bytes ∧ PrefixString 7 0 bytes value := by
  have hflags : (0 : UInt8).toNat = 2 ^ 7 * (2 * 0) := rfl
  obtain ⟨head, hput, hhead⟩ := putInt_prefixInt (by omega) hflags hvalue out
  exact ⟨head ++ value, by rw [putString, hput, List.append_assoc], head, value, rfl,
    .inl ⟨hhead, rfl⟩⟩

lemma static_of_findIdx? {p : Field → Bool} {index : ℕ} (h : STATIC.findIdx? p = some index) :
    ∃ entry, STATIC[index]? = some entry ∧ p entry = true ∧ index < 2 ^ 62 := by
  obtain ⟨hlt, hp, -⟩ := List.findIdx?_eq_some_iff_getElem.1 h
  have hsize : STATIC.length = 99 := rfl
  exact ⟨STATIC[index], List.getElem?_eq_getElem hlt, hp, by omega⟩

/-- **A written field** is a field line of the grammar that denotes it, in each of the forms. -/
lemma putField_fieldLine {field : Field} (hname : field.1.length < 2 ^ 62)
    (hvalue : field.2.length < 2 ^ 62) (out : List UInt8) :
    ∃ line, putField out field = out ++ line ∧ FieldLine line field := by
  have hnever : 0 < 2 := by omega
  unfold putField
  split
  · next index hwhole =>
    obtain ⟨entry, hentry, hsame, hindex⟩ := static_of_findIdx? hwhole
    obtain rfl : entry = field := of_decide_eq_true hsame
    have hflags : (0b11000000 : UInt8).toNat = 2 ^ 6 * 0b11 := rfl
    obtain ⟨line, hput, hline⟩ := putInt_prefixInt (by omega) hflags hindex out
    exact ⟨line, hput, .indexed hline hentry⟩
  · split
    · next index hknown =>
      obtain ⟨entry, hentry, hsame, hindex⟩ := static_of_findIdx? hknown
      have hnamed : entry.1 = field.1 := of_decide_eq_true hsame
      have hflags : (0b01010000 : UInt8).toNat = 2 ^ 4 * (0b0101 + 2 * 0) := rfl
      obtain ⟨head, hput, hhead⟩ := putInt_prefixInt (by omega) hflags hindex out
      obtain ⟨tail, htail, hstring⟩ := putString_prefixString hvalue (out ++ head)
      have hline := FieldLine.nameReference hnever hhead hentry hstring
      rw [hnamed] at hline
      exact ⟨head ++ tail, by rw [hput, htail, List.append_assoc], hline⟩
    · have hflags : (0b00100000 : UInt8).toNat = 2 ^ 3 * (2 * (0b0010 + 0)) := rfl
      obtain ⟨head, hput, hhead⟩ := putInt_prefixInt (by omega) hflags hname out
      obtain ⟨tail, htail, hstring⟩ := putString_prefixString hvalue (out ++ head ++ field.1)
      have hliteral : PrefixString 3 (0b0010 + 0) (head ++ field.1) field.1 :=
        ⟨head, field.1, rfl, .inl ⟨hhead, rfl⟩⟩
      exact ⟨head ++ field.1 ++ tail, by rw [hput, htail]; simp,
        .literal hnever hliteral hstring⟩

lemma foldl_putField {fields : List Field} (out : List UInt8)
    (h : ∀ field ∈ fields, field.1.length < 2 ^ 62 ∧ field.2.length < 2 ^ 62) :
    ∃ encoded, fields.foldl putField out = out ++ List.flatten encoded ∧
      List.Forall₂ FieldLine encoded fields := by
  induction fields generalizing out with
  | nil => exact ⟨[], by simp, .nil⟩
  | cons field fields ih =>
    obtain ⟨⟨hname, hvalue⟩, hrest⟩ := List.forall_mem_cons.1 h
    obtain ⟨line, hput, hline⟩ := putField_fieldLine hname hvalue out
    obtain ⟨encoded, hfold, hlines⟩ := ih (out ++ line) hrest
    exact ⟨line :: encoded, by rw [List.foldl_cons, hput, hfold]; simp, .cons hline hlines⟩

/-- What is written is a section of the grammar that denotes the fields. -/
lemma encode_isSection {fields : List Field} (out : List UInt8)
    (h : ∀ field ∈ fields, field.1.length < 2 ^ 62 ∧ field.2.length < 2 ^ 62) :
    ∃ fieldSection, encode fields out = out ++ fieldSection ∧ IsSection fieldSection fields := by
  obtain ⟨encoded, hfold, hlines⟩ := foldl_putField (out ++ [0x00, 0x00]) h
  refine ⟨[0x00] ++ [0x00] ++ encoded.flatten, ?_, [0x00], [0x00], encoded, 0, 0, rfl, ?_, ?_,
    hlines⟩
  · rw [encode, hfold, List.append_assoc]
    rfl
  · have hzero : (0x00 : UInt8).toNat % 2 ^ 8 < 2 ^ 8 - 1 := by decide
    exact .short hzero
  · have hzero : (0x00 : UInt8).toNat % 2 ^ 7 < 2 ^ 7 - 1 := by decide
    exact .short hzero

/-- **What is written reads back**: a section is the fields it was written from, in whichever forms
they were written. -/
theorem decode_encode (fields : List Field) (out : List UInt8)
    (h : ∀ field ∈ fields, field.1.length < 2 ^ 62 ∧ field.2.length < 2 ^ 62) :
    ∃ fieldSection, encode fields out = out ++ fieldSection ∧ decode fieldSection = .ok fields := by
  obtain ⟨fieldSection, hencode, hsection⟩ := encode_isSection out h
  exact ⟨fieldSection, hencode, decode_of hsection⟩

/-- A request with a field of each form. -/
def eachForm : List Field :=
  [(ascii ":method", ascii "CONNECT"), (ascii ":path", ascii "/ip"), (ascii "cf", ascii "yes")]

/-- Each of the three forms reads back. -/
theorem decode_encode_each : ∃ fieldSection,
    encode eachForm [] = [] ++ fieldSection ∧ decode fieldSection = .ok eachForm :=
  decode_encode eachForm [] (by
    have hshort : ∀ field ∈ eachForm, field.1.length < 100 ∧ field.2.length < 100 := by
      decide +kernel
    intro field hfield
    obtain ⟨hname, hvalue⟩ := hshort field hfield
    exact ⟨by omega, by omega⟩)

end Masqr.Transport.Qpack
