import Mathlib
import Masqr.Lib.Fault
import Masqr.Lib.Stream
import Masqr.Transport.Huffman

/-!
QPACK, as much of it as one request and one response need: the static table and literals.
-/

namespace Masqr.Transport

open Masqr.Lib

namespace Qpack

/-- One field line: a name and its value. -/
abbrev Field := List UInt8 × List UInt8

def ascii (text : String) : List UInt8 := text.toList.map fun c => UInt8.ofNat c.toNat

/-- The static table, indexed from zero. -/
def STATIC : List Field :=
  [(ascii ":authority", ascii ""),
   (ascii ":path", ascii "/"),
   (ascii "age", ascii "0"),
   (ascii "content-disposition", ascii ""),
   (ascii "content-length", ascii "0"),
   (ascii "cookie", ascii ""),
   (ascii "date", ascii ""),
   (ascii "etag", ascii ""),
   (ascii "if-modified-since", ascii ""),
   (ascii "if-none-match", ascii ""),
   (ascii "last-modified", ascii ""),
   (ascii "link", ascii ""),
   (ascii "location", ascii ""),
   (ascii "referer", ascii ""),
   (ascii "set-cookie", ascii ""),
   (ascii ":method", ascii "CONNECT"),
   (ascii ":method", ascii "DELETE"),
   (ascii ":method", ascii "GET"),
   (ascii ":method", ascii "HEAD"),
   (ascii ":method", ascii "OPTIONS"),
   (ascii ":method", ascii "POST"),
   (ascii ":method", ascii "PUT"),
   (ascii ":scheme", ascii "http"),
   (ascii ":scheme", ascii "https"),
   (ascii ":status", ascii "103"),
   (ascii ":status", ascii "200"),
   (ascii ":status", ascii "304"),
   (ascii ":status", ascii "404"),
   (ascii ":status", ascii "503"),
   (ascii "accept", ascii "*/*"),
   (ascii "accept", ascii "application/dns-message"),
   (ascii "accept-encoding", ascii "gzip, deflate, br"),
   (ascii "accept-ranges", ascii "bytes"),
   (ascii "access-control-allow-headers", ascii "cache-control"),
   (ascii "access-control-allow-headers", ascii "content-type"),
   (ascii "access-control-allow-origin", ascii "*"),
   (ascii "cache-control", ascii "max-age=0"),
   (ascii "cache-control", ascii "max-age=2592000"),
   (ascii "cache-control", ascii "max-age=604800"),
   (ascii "cache-control", ascii "no-cache"),
   (ascii "cache-control", ascii "no-store"),
   (ascii "cache-control", ascii "public, max-age=31536000"),
   (ascii "content-encoding", ascii "br"),
   (ascii "content-encoding", ascii "gzip"),
   (ascii "content-type", ascii "application/dns-message"),
   (ascii "content-type", ascii "application/javascript"),
   (ascii "content-type", ascii "application/json"),
   (ascii "content-type", ascii "application/x-www-form-urlencoded"),
   (ascii "content-type", ascii "image/gif"),
   (ascii "content-type", ascii "image/jpeg"),
   (ascii "content-type", ascii "image/png"),
   (ascii "content-type", ascii "text/css"),
   (ascii "content-type", ascii "text/html; charset=utf-8"),
   (ascii "content-type", ascii "text/plain"),
   (ascii "content-type", ascii "text/plain;charset=utf-8"),
   (ascii "range", ascii "bytes=0-"),
   (ascii "strict-transport-security", ascii "max-age=31536000"),
   (ascii "strict-transport-security", ascii "max-age=31536000; includesubdomains"),
   (ascii "strict-transport-security", ascii "max-age=31536000; includesubdomains; preload"),
   (ascii "vary", ascii "accept-encoding"),
   (ascii "vary", ascii "origin"),
   (ascii "x-content-type-options", ascii "nosniff"),
   (ascii "x-xss-protection", ascii "1; mode=block"),
   (ascii ":status", ascii "100"),
   (ascii ":status", ascii "204"),
   (ascii ":status", ascii "206"),
   (ascii ":status", ascii "302"),
   (ascii ":status", ascii "400"),
   (ascii ":status", ascii "403"),
   (ascii ":status", ascii "421"),
   (ascii ":status", ascii "425"),
   (ascii ":status", ascii "500"),
   (ascii "accept-language", ascii ""),
   (ascii "access-control-allow-credentials", ascii "FALSE"),
   (ascii "access-control-allow-credentials", ascii "TRUE"),
   (ascii "access-control-allow-headers", ascii "*"),
   (ascii "access-control-allow-methods", ascii "get"),
   (ascii "access-control-allow-methods", ascii "get, post, options"),
   (ascii "access-control-allow-methods", ascii "options"),
   (ascii "access-control-expose-headers", ascii "content-length"),
   (ascii "access-control-request-headers", ascii "content-type"),
   (ascii "access-control-request-method", ascii "get"),
   (ascii "access-control-request-method", ascii "post"),
   (ascii "alt-svc", ascii "clear"),
   (ascii "authorization", ascii ""),
   (ascii "content-security-policy", ascii "script-src 'none'; object-src 'none'; base-uri 'none'"),
   (ascii "early-data", ascii "1"),
   (ascii "expect-ct", ascii ""),
   (ascii "forwarded", ascii ""),
   (ascii "if-range", ascii ""),
   (ascii "origin", ascii ""),
   (ascii "purpose", ascii "prefetch"),
   (ascii "server", ascii ""),
   (ascii "timing-allow-origin", ascii "*"),
   (ascii "upgrade-insecure-requests", ascii "1"),
   (ascii "user-agent", ascii ""),
   (ascii "x-forwarded-for", ascii ""),
   (ascii "x-frame-options", ascii "deny"),
   (ascii "x-frame-options", ascii "sameorigin")]

/-- Why a field section could not be read. -/
inductive QpackError
  | truncated
  | dynamic
  | unknownIndex (index : ℕ)
  | overflow
  | huffman (problem : Huffman.HuffmanError)
  deriving DecidableEq

def QpackError.text : QpackError → String
  | .truncated => "the field section ends in the middle of a field line"
  | .dynamic => "the field section refers to a dynamic table, which this side declared no room for"
  | .unknownIndex index =>
    s!"the field section refers to static entry {index}, and the table ends at 98"
  | .overflow => "an integer in the field section runs longer than any field needs"
  | .huffman problem => s!"a Huffman-coded string: {problem.text}"

abbrev Outcome (α : Type) := Except (Fault QpackError) α

def refuse {α : Type} (problem : QpackError) : Outcome α := .error (.refused problem)

/-- What is left of a buffer past so many bytes. -/
def advance (buf : List UInt8) (used : ℕ) : Outcome (List UInt8) :=
  if used ≤ buf.length then .ok (buf.drop used) else .error .panic

def staticEntry (index : ℕ) : Outcome Field :=
  match STATIC[index]? with
  | some entry => .ok entry
  | none => refuse (.unknownIndex index)

/-- The continuation of an integer, seven bits a byte. -/
def getContinued (value shift position : ℕ) : List UInt8 → Outcome (ℕ × ℕ)
  | [] => refuse .truncated
  | byte :: rest =>
    -- nine bytes already carry 63 bits
    if 56 < shift then refuse .overflow
    else
      let value := value + (byte.toNat % 128) * 2 ^ shift % 2 ^ 64
      if 2 ^ 64 ≤ value then .error .panic
      else if byte.toNat < 128 then .ok (value, position + 1)
      else getContinued value (shift + 7) (position + 1) rest

/-- A prefixed integer, and how many bytes it took. -/
def getInt (buf : List UInt8) (width : ℕ) : Outcome (ℕ × ℕ) :=
  let max := 2 ^ width - 1
  match buf with
  | [] => refuse .truncated
  | first :: rest =>
    let value := first.toNat % 2 ^ width
    if value < max then .ok (value, 1) else getContinued value 0 1 rest

/-- A string literal with a prefixed length, the Huffman flag just above it, and how many bytes it
took. -/
def getString (buf : List UInt8) (width : ℕ) : Outcome (List UInt8 × ℕ) :=
  match buf with
  | [] => refuse .truncated
  | first :: _ => do
    let huffman := first.toNat / 2 ^ width % 2 = 1
    let (length, used) ← getInt buf width
    let finish := used + length
    if buf.length < finish then refuse .truncated
    else
      let raw := (buf.take finish).drop used
      if huffman then
        let value ← Fault.mapError QpackError.huffman (Huffman.decode raw)
        .ok (value, finish)
      else .ok (raw, finish)

/-- The field line at the front, and what is left past it. -/
def fieldLine (rest : List UInt8) (first : UInt8) : Outcome (Field × List UInt8) :=
  if first.toNat / 128 % 2 = 1 then
    if first.toNat / 64 % 2 = 0 then refuse .dynamic
    else do
      let (index, used) ← getInt rest 6
      let rest ← advance rest used
      let entry ← staticEntry index
      .ok (entry, rest)
  else if first.toNat / 64 % 2 = 1 then
    if first.toNat / 16 % 2 = 0 then refuse .dynamic
    else do
      let (index, used) ← getInt rest 4
      let rest ← advance rest used
      let entry ← staticEntry index
      let (value, used) ← getString rest 7
      let rest ← advance rest used
      .ok ((entry.1, value), rest)
  else if first.toNat / 32 % 2 = 1 then do
    let (name, used) ← getString rest 3
    let rest ← advance rest used
    let (value, used) ← getString rest 7
    let rest ← advance rest used
    .ok ((name, value), rest)
  else refuse .dynamic

/-! ### Integers -/

/-- The continuation bytes of an integer and what they add to it: seven bits a byte, the lowest
first, all bytes but the last marked. -/
inductive Continues : List UInt8 → ℕ → Prop
  | last {b : UInt8} : b.toNat < 128 → Continues [b] b.toNat
  | more {b : UInt8} {bytes n} : 128 ≤ b.toNat → Continues bytes n →
      Continues (b :: bytes) (b.toNat % 128 + 128 * n)

/-- An integer with a prefix of so many bits and the bits above the prefix: the prefix alone, or a
prefix of ones and at most nine bytes of continuation. -/
inductive PrefixInt (width : ℕ) : ℕ → List UInt8 → ℕ → Prop
  | short {b : UInt8} : b.toNat % 2 ^ width < 2 ^ width - 1 →
      PrefixInt width (b.toNat / 2 ^ width) [b] (b.toNat % 2 ^ width)
  | long {b : UInt8} {bytes n} : b.toNat % 2 ^ width = 2 ^ width - 1 → Continues bytes n →
      bytes.length ≤ 9 → PrefixInt width (b.toNat / 2 ^ width) (b :: bytes) (2 ^ width - 1 + n)

/-- What one byte of continuation adds, and what the next may. -/
lemma continued_bounds (byte : UInt8) {shift : ℕ} (hshift : shift ≤ 56) :
    2 ^ shift ≤ 2 ^ 56 ∧ byte.toNat % 128 * 2 ^ shift ≤ 127 * 2 ^ shift ∧
      2 ^ (shift + 7) = 128 * 2 ^ shift := by
  have hlow : byte.toNat % 128 ≤ 127 := by omega
  refine ⟨Nat.pow_le_pow_right (by omega) hshift, Nat.mul_le_mul_right _ hlow, ?_⟩
  rw [Nat.pow_add]
  ring

lemma getContinued_of {bytes : List UInt8} {n : ℕ} (h : Continues bytes n) (rest : List UInt8) :
    ∀ value shift position, value < 256 + 2 ^ shift → shift + 7 * bytes.length ≤ 63 →
      getContinued value shift position (bytes ++ rest) =
        .ok (value + n * 2 ^ shift, position + bytes.length) := by
  induction h with
  | @last b hb =>
    intro value shift position hvalue hshift
    rw [List.length_singleton] at hshift ⊢
    have hpow : 2 ^ shift ≤ 2 ^ 56 := Nat.pow_le_pow_right (by omega) (by omega)
    have hadd : b.toNat * 2 ^ shift ≤ 127 * 2 ^ 56 := Nat.mul_le_mul (by omega) hpow
    rw [List.singleton_append, getContinued]
    simp only
    rw [if_neg (by omega), Nat.mod_eq_of_lt hb, Nat.mod_eq_of_lt (by omega), if_neg (by omega),
      if_pos hb]
  | @more b bytes n hb _ ih =>
    intro value shift position hvalue hshift
    rw [List.length_cons] at hshift ⊢
    obtain ⟨hpow, hadd, hnext⟩ := continued_bounds b (by omega : shift ≤ 56)
    rw [List.cons_append, getContinued]
    simp only
    rw [if_neg (by omega), Nat.mod_eq_of_lt (by omega), if_neg (by omega), if_neg (by omega),
      ih _ _ _ (by omega) (by omega), hnext]
    congr 2
    · ring
    · omega

lemma getContinued_ok {buf : List UInt8} {value shift position v used : ℕ}
    (hvalue : value < 256 + 2 ^ shift)
    (h : getContinued value shift position buf = .ok (v, used)) :
    ∃ bytes rest n, buf = bytes ++ rest ∧ Continues bytes n ∧ v = value + n * 2 ^ shift ∧
      used = position + bytes.length ∧ shift + 7 * bytes.length ≤ 63 := by
  induction buf generalizing value shift position with
  | nil => cases h
  | cons byte buf ih =>
    rw [getContinued] at h
    simp only at h
    split at h
    · cases h
    · next hshift =>
      obtain ⟨hpow, hadd, hnext⟩ := continued_bounds byte (by omega : shift ≤ 56)
      rw [Nat.mod_eq_of_lt (by omega), if_neg (by omega)] at h
      split at h
      · next hlast =>
        cases h
        refine ⟨[byte], buf, byte.toNat, rfl, .last hlast, ?_, rfl, ?_⟩
        · rw [Nat.mod_eq_of_lt hlast]
        · rw [List.length_singleton]
          omega
      · next hmore =>
        obtain ⟨bytes, rest, n, rfl, hn, rfl, rfl, hlen⟩ := ih (by omega) h
        refine ⟨byte :: bytes, rest, _, rfl, .more (by omega) hn, ?_, ?_, ?_⟩
        · rw [hnext]
          ring
        · rw [List.length_cons]
          omega
        · rw [List.length_cons]
          omega

lemma getContinued_safe (buf : List UInt8) {value shift : ℕ} (position : ℕ)
    (hvalue : value < 256 + 2 ^ shift) : Safe (getContinued value shift position buf) := by
  induction buf generalizing value shift position with
  | nil => exact safe_refused _
  | cons byte buf ih =>
    rw [getContinued]
    simp only
    split
    · exact safe_refused _
    · next hshift =>
      obtain ⟨hpow, hadd, hnext⟩ := continued_bounds byte (by omega : shift ≤ 56)
      rw [Nat.mod_eq_of_lt (by omega), if_neg (by omega)]
      split
      · exact safe_ok _
      · exact ih _ (by omega)

variable {width : ℕ}

lemma getInt_of {flags v : ℕ} {bytes : List UInt8} (hwidth : width ≤ 8)
    (h : PrefixInt width flags bytes v) (rest : List UInt8) :
    getInt (bytes ++ rest) width = .ok (v, bytes.length) := by
  cases h with
  | @short b hb =>
    rw [List.singleton_append, getInt]
    simp only [if_pos hb, List.length_singleton]
  | @long b bytes n hb hn hlen =>
    have hpow : 2 ^ width ≤ 2 ^ 8 := Nat.pow_le_pow_right (by omega) hwidth
    have hvalue : b.toNat % 2 ^ width < 256 + 2 ^ 0 := by omega
    rw [List.cons_append, getInt]
    rw [if_neg (by omega), getContinued_of hn rest _ 0 1 hvalue (by omega), hb, pow_zero,
      Nat.mul_one, List.length_cons, Nat.add_comm 1]

lemma getInt_ok {buf : List UInt8} {v used : ℕ} (hwidth : width ≤ 8)
    (h : getInt buf width = .ok (v, used)) :
    ∃ bytes rest flags, buf = bytes ++ rest ∧ used = bytes.length ∧
      PrefixInt width flags bytes v := by
  obtain _ | ⟨first, buf⟩ := buf
  · cases h
  · have hpow : 2 ^ width ≤ 2 ^ 8 := Nat.pow_le_pow_right (by omega) hwidth
    have hpos : 0 < 2 ^ width := Nat.two_pow_pos width
    have hmod : first.toNat % 2 ^ width < 2 ^ width := Nat.mod_lt _ hpos
    rw [getInt] at h
    split at h
    · next hshort =>
      cases h
      exact ⟨[first], buf, _, rfl, rfl, .short hshort⟩
    · next hlong =>
      have hvalue : first.toNat % 2 ^ width < 256 + 2 ^ 0 := by omega
      have hones : first.toNat % 2 ^ width = 2 ^ width - 1 := by omega
      obtain ⟨bytes, rest, n, rfl, hn, rfl, rfl, hlen⟩ := getContinued_ok hvalue h
      refine ⟨first :: bytes, rest, first.toNat / 2 ^ width, rfl, ?_, ?_⟩
      · rw [List.length_cons, Nat.add_comm]
      · rw [pow_zero, Nat.mul_one, hones]
        exact .long hones hn (by omega)

lemma getInt_safe (hwidth : width ≤ 8) (buf : List UInt8) : Safe (getInt buf width) := by
  obtain _ | ⟨first, buf⟩ := buf
  · exact safe_refused _
  · have hpow : 2 ^ width ≤ 2 ^ 8 := Nat.pow_le_pow_right (by omega) hwidth
    have hmod : first.toNat % 2 ^ width < 2 ^ width := Nat.mod_lt _ (Nat.two_pow_pos width)
    rw [getInt]
    split
    · exact safe_ok _
    · exact getContinued_safe buf 1 (by omega)

lemma PrefixInt.first {flags v : ℕ} {bytes : List UInt8} (h : PrefixInt width flags bytes v) :
    ∃ first rest, bytes = first :: rest ∧ flags = first.toNat / 2 ^ width := by
  cases h with
  | short _ => exact ⟨_, _, rfl, rfl⟩
  | long _ _ _ => exact ⟨_, _, rfl, rfl⟩

lemma advance_append (bytes rest : List UInt8) :
    advance (bytes ++ rest) bytes.length = .ok rest := by
  rw [advance, if_pos (by simp), List.drop_left]

/-! ### Strings -/

/-- A string with a prefixed length, the flag above the prefix saying whether it is Huffman-coded,
and the bits above the flag. -/
def PrefixString (width flags : ℕ) (bytes value : List UInt8) : Prop :=
  ∃ head raw, bytes = head ++ raw ∧
    (PrefixInt width (2 * flags) head raw.length ∧ value = raw ∨
      PrefixInt width (2 * flags + 1) head raw.length ∧ Huffman.Coded raw value)

lemma getString_of {flags : ℕ} {bytes value : List UInt8} (hwidth : width ≤ 8)
    (h : PrefixString width flags bytes value) (rest : List UInt8) :
    getString (bytes ++ rest) width = .ok (value, bytes.length) := by
  obtain ⟨head, raw, rfl, hform⟩ := h
  have hread : ∀ flag, PrefixInt width (2 * flags + flag) head raw.length → flag < 2 →
      getString (head ++ raw ++ rest) width =
        if flag = 1 then (Fault.mapError QpackError.huffman (Huffman.decode raw)) >>= fun value =>
          .ok (value, (head ++ raw).length)
        else .ok (raw, (head ++ raw).length) := by
    intro flag hint hflag
    obtain ⟨first, more, rfl, hfirst⟩ := hint.first
    have hlen := getInt_of hwidth hint (raw ++ rest)
    rw [← List.append_assoc] at hlen
    have hcut : ((first :: more ++ raw ++ rest).take (first :: more ++ raw).length).drop
        (first :: more).length = raw := by
      rw [List.take_left' rfl, List.drop_left' rfl]
    have hbit : (first.toNat / 2 ^ width % 2 = 1) = (flag = 1) := by
      rw [← hfirst]
      apply propext
      omega
    have htotal : (first :: more).length + raw.length = (first :: more ++ raw).length :=
      List.length_append.symm
    have hfits : ¬ (first :: more ++ raw ++ rest).length < (first :: more ++ raw).length := by
      rw [@List.length_append _ _ rest]
      omega
    simp only [List.cons_append] at hlen hcut hfits htotal ⊢
    rw [getString]
    simp only [hlen, ok_bind, hbit, htotal, if_neg hfits, hcut]
  rcases hform with ⟨hint, rfl⟩ | ⟨hint, hcoded⟩
  · exact (hread 0 hint (by omega)).trans (if_neg (by omega))
  · rw [hread 1 hint (by omega), if_pos rfl, (Huffman.decode_ok_iff raw value).2 hcoded]
    rfl

lemma getString_ok {buf value : List UInt8} {used : ℕ} (hwidth : width ≤ 8)
    (h : getString buf width = .ok (value, used)) :
    ∃ bytes rest flags, buf = bytes ++ rest ∧ used = bytes.length ∧
      PrefixString width flags bytes value := by
  obtain _ | ⟨first, tail⟩ := buf
  · cases h
  · rw [getString] at h
    obtain ⟨⟨length, headLen⟩, hint, h⟩ := bind_eq_ok.1 h
    obtain ⟨head, rest, flags, hbuf, rfl, hhead⟩ := getInt_ok hwidth hint
    obtain ⟨first', more, hcons, hflags⟩ := hhead.first
    have hsame : first = first' := by
      rw [hcons] at hbuf
      exact (List.cons.inj hbuf).1
    subst hsame
    rw [hbuf] at h
    simp only at h
    split at h
    · cases h
    · next hfits =>
      rw [List.length_append] at hfits
      obtain ⟨raw, rest, rfl, hraw⟩ : ∃ raw rest', rest = raw ++ rest' ∧ raw.length = length :=
        ⟨rest.take length, rest.drop length, (List.take_append_drop _ _).symm, by
          rw [List.length_take]
          omega⟩
      have hcut : ((head ++ (raw ++ rest)).take (head.length + length)).drop head.length = raw := by
        rw [← List.append_assoc, List.take_left' (by rw [List.length_append, hraw]), List.drop_left]
      rw [hcut] at h
      refine ⟨head ++ raw, rest, flags / 2, by rw [hbuf, List.append_assoc], ?_⟩
      split at h
      · next hhuffman =>
        obtain ⟨value', hdecode, h⟩ := bind_eq_ok.1 h
        cases h
        have hcoded := (Huffman.decode_ok_iff raw value).1 (Fault.mapError_eq_ok.1 hdecode)
        have hodd : 2 * (flags / 2) + 1 = flags := by omega
        refine ⟨by rw [List.length_append, hraw], head, raw, rfl, .inr ⟨?_, hcoded⟩⟩
        rw [hodd, hraw]
        exact hhead
      · next hplain =>
        cases h
        have heven : 2 * (flags / 2) = flags := by omega
        refine ⟨by rw [List.length_append, hraw], head, value, rfl, .inl ⟨?_, rfl⟩⟩
        rw [heven, hraw]
        exact hhead

lemma getString_safe (hwidth : width ≤ 8) (buf : List UInt8) : Safe (getString buf width) := by
  obtain _ | ⟨first, tail⟩ := buf
  · exact safe_refused _
  · rw [getString]
    refine (getInt_safe hwidth _).bind fun ⟨length, used⟩ _ => ?_
    simp only
    split
    · exact safe_refused _
    · split
      · exact (Huffman.decode_safe _).mapError.bind fun value _ => safe_ok _
      · exact safe_ok _

/-! ### Field lines -/

/-- The three forms of a field line that need no dynamic table. -/
inductive FieldLine : List UInt8 → Field → Prop
  /-- Indexed, static: 11, then the index. -/
  | indexed {bytes index field} : PrefixInt 6 0b11 bytes index → STATIC[index]? = some field →
      FieldLine bytes field
  /-- A literal with a static name reference: 01N1, then the index, then the value. -/
  | nameReference {never head index entry tail value} : never < 2 →
      PrefixInt 4 (0b0101 + 2 * never) head index → STATIC[index]? = some entry →
      PrefixString 7 0 tail value → FieldLine (head ++ tail) (entry.1, value)
  /-- A literal with a literal name: 001N, then the name, then the value. -/
  | literal {never head name tail value} : never < 2 → PrefixString 3 (0b0010 + never) head name →
      PrefixString 7 0 tail value → FieldLine (head ++ tail) (name, value)

lemma PrefixString.first {flags : ℕ} {bytes value : List UInt8}
    (h : PrefixString width flags bytes value) :
    ∃ first rest, bytes = first :: rest ∧ first.toNat / 2 ^ width / 2 = flags := by
  obtain ⟨head, raw, rfl, ⟨hint, -⟩ | ⟨hint, -⟩⟩ := h
  all_goals
    obtain ⟨first, rest, rfl, hfirst⟩ := hint.first
    exact ⟨first, rest ++ raw, rfl, by omega⟩

lemma PrefixInt.flags_of {flags v : ℕ} {bytes tail after : List UInt8} {first : UInt8}
    (h : PrefixInt width flags bytes v) (hbuf : first :: tail = bytes ++ after) :
    flags = first.toNat / 2 ^ width := by
  obtain ⟨first', rest, rfl, hflags⟩ := h.first
  rw [List.cons_append] at hbuf
  rw [hflags, (List.cons.inj hbuf).1]

lemma PrefixString.flags_of {flags : ℕ} {bytes value tail after : List UInt8} {first : UInt8}
    (h : PrefixString width flags bytes value) (hbuf : first :: tail = bytes ++ after) :
    flags = first.toNat / 2 ^ width / 2 := by
  obtain ⟨first', rest, rfl, hflags⟩ := h.first
  rw [List.cons_append] at hbuf
  rw [← hflags, (List.cons.inj hbuf).1]

lemma staticEntry_eq_ok {index : ℕ} {field : Field} :
    staticEntry index = .ok field ↔ STATIC[index]? = some field := by
  rw [staticEntry]
  cases STATIC[index]? <;> simp [refuse]

lemma fieldLine_of {line : List UInt8} {field : Field} (h : FieldLine line field)
    (rest : List UInt8) :
    ∃ first more, line = first :: more ∧ fieldLine (line ++ rest) first = .ok (field, rest) := by
  cases h with
  | indexed hint hentry =>
    obtain ⟨first, more, rfl, hfirst⟩ := hint.first
    have hread := getInt_of (by omega) hint rest
    refine ⟨first, more, rfl, ?_⟩
    rw [fieldLine, if_pos (by omega), if_neg (by omega)]
    simp only [hread, ok_bind, advance_append, staticEntry_eq_ok.2 hentry]
  | @nameReference never head index entry tail value hnever hint hentry hvalue =>
    obtain ⟨first, more, rfl, hfirst⟩ := hint.first
    have hread := getInt_of (by omega) hint (tail ++ rest)
    have hstring := getString_of (by omega) hvalue rest
    refine ⟨first, more ++ tail, rfl, ?_⟩
    rw [List.append_assoc, fieldLine, if_neg (by omega), if_pos (by omega), if_neg (by omega)]
    simp only [hread, ok_bind, advance_append, staticEntry_eq_ok.2 hentry, hstring]
  | @literal never head name tail value hnever hname hvalue =>
    obtain ⟨first, more, rfl, hfirst⟩ := hname.first
    have hread := getString_of (by omega) hname (tail ++ rest)
    have hstring := getString_of (by omega) hvalue rest
    refine ⟨first, more ++ tail, rfl, ?_⟩
    rw [List.append_assoc, fieldLine, if_neg (by omega), if_neg (by omega), if_pos (by omega)]
    simp only [hread, ok_bind, advance_append, hstring]

lemma fieldLine_ok {first : UInt8} {tail rest : List UInt8} {field : Field}
    (h : fieldLine (first :: tail) first = .ok (field, rest)) :
    ∃ line, first :: tail = line ++ rest ∧ FieldLine line field := by
  have hbyte := first.toNat_lt
  unfold fieldLine at h
  split at h
  · next hindexed =>
    split at h
    · cases h
    · next hstatic =>
      obtain ⟨⟨index, used⟩, hint, h⟩ := bind_eq_ok.1 h
      obtain ⟨head, after, flags, hbuf, rfl, hhead⟩ := getInt_ok (by omega) hint
      have hflags := hhead.flags_of hbuf
      rw [hbuf] at h
      simp only at h
      rw [advance_append, ok_bind] at h
      obtain ⟨entry, hentry, h⟩ := bind_eq_ok.1 h
      cases h
      have h11 : flags = 0b11 := by omega
      exact ⟨head, hbuf, .indexed (h11 ▸ hhead) (staticEntry_eq_ok.1 hentry)⟩
  · next hnotIndexed =>
    split at h
    · next hreference =>
      split at h
      · cases h
      · next hstatic =>
        obtain ⟨⟨index, used⟩, hint, h⟩ := bind_eq_ok.1 h
        obtain ⟨head, after, flags, hbuf, rfl, hhead⟩ := getInt_ok (by omega) hint
        have hflags := hhead.flags_of hbuf
        rw [hbuf] at h
        simp only at h
        rw [advance_append, ok_bind] at h
        obtain ⟨entry, hentry, h⟩ := bind_eq_ok.1 h
        obtain ⟨⟨value, used⟩, hstring, h⟩ := bind_eq_ok.1 h
        obtain ⟨bytes, rest, flags', rfl, rfl, hvalue⟩ := getString_ok (by omega) hstring
        simp only at h
        rw [advance_append, ok_bind] at h
        cases h
        obtain ⟨never, hnever, h01⟩ : ∃ never < 2, flags = 0b0101 + 2 * never :=
          ⟨flags / 2 % 2, by omega, by omega⟩
        obtain ⟨first'', _, rfl, hzero⟩ := hvalue.first
        have hbyte'' := first''.toNat_lt
        have h0 : flags' = 0 := by omega
        exact ⟨head ++ _, by rw [hbuf, List.append_assoc], .nameReference hnever (h01 ▸ hhead)
          (staticEntry_eq_ok.1 hentry) (h0 ▸ hvalue)⟩
    · next hnotReference =>
      split at h
      · next hliteral =>
        obtain ⟨⟨name, used⟩, hname, h⟩ := bind_eq_ok.1 h
        obtain ⟨head, after, flags, hbuf, rfl, hhead⟩ := getString_ok (by omega) hname
        have hflags := hhead.flags_of hbuf
        rw [hbuf] at h
        simp only at h
        rw [advance_append, ok_bind] at h
        obtain ⟨⟨value, used⟩, hstring, h⟩ := bind_eq_ok.1 h
        obtain ⟨bytes, rest, flags', rfl, rfl, hvalue⟩ := getString_ok (by omega) hstring
        simp only at h
        rw [advance_append, ok_bind] at h
        cases h
        obtain ⟨never, hnever, h001⟩ : ∃ never < 2, flags = 0b0010 + never :=
          ⟨flags % 2, by omega, by omega⟩
        obtain ⟨first'', _, rfl, hzero⟩ := hvalue.first
        have hbyte'' := first''.toNat_lt
        have h0 : flags' = 0 := by omega
        exact ⟨head ++ _, by rw [hbuf, List.append_assoc], .literal hnever (h001 ▸ hhead) (h0 ▸ hvalue)⟩
      · cases h

lemma staticEntry_safe (index : ℕ) : Safe (staticEntry index) := by
  rw [staticEntry]
  split
  · exact safe_ok _
  · exact safe_refused _

lemma advance_int_safe {buf : List UInt8} {v used : ℕ} (hwidth : width ≤ 8)
    (h : getInt buf width = .ok (v, used)) : Safe (advance buf used) := by
  obtain ⟨bytes, rest, flags, rfl, rfl, -⟩ := getInt_ok hwidth h
  rw [advance_append]
  exact safe_ok _

lemma advance_string_safe {buf value : List UInt8} {used : ℕ} (hwidth : width ≤ 8)
    (h : getString buf width = .ok (value, used)) : Safe (advance buf used) := by
  obtain ⟨bytes, rest, flags, rfl, rfl, -⟩ := getString_ok hwidth h
  rw [advance_append]
  exact safe_ok _

lemma fieldLine_safe (buf : List UInt8) (first : UInt8) : Safe (fieldLine buf first) := by
  unfold fieldLine
  split
  · split
    · exact safe_refused _
    · refine (getInt_safe (by omega) _).bind fun _ hint => ?_
      refine (advance_int_safe (by omega) hint).bind fun _ _ => ?_
      exact (staticEntry_safe _).bind fun _ _ => safe_ok _
  · split
    · split
      · exact safe_refused _
      · refine (getInt_safe (by omega) _).bind fun _ hint => ?_
        refine (advance_int_safe (by omega) hint).bind fun _ _ => ?_
        refine (staticEntry_safe _).bind fun _ _ => ?_
        refine (getString_safe (by omega) _).bind fun _ hvalue => ?_
        exact (advance_string_safe (by omega) hvalue).bind fun _ _ => safe_ok _
    · split
      · refine (getString_safe (by omega) _).bind fun _ hname => ?_
        refine (advance_string_safe (by omega) hname).bind fun _ _ => ?_
        refine (getString_safe (by omega) _).bind fun _ hvalue => ?_
        exact (advance_string_safe (by omega) hvalue).bind fun _ _ => safe_ok _
      · exact safe_refused _

lemma FieldLine.length_pos {line : List UInt8} {field : Field} (h : FieldLine line field) :
    0 < line.length := by
  obtain ⟨first, more, rfl, -⟩ := fieldLine_of h []
  simp

/-! ### Sections -/

/-- The field lines of a section, until there are no more or one of them is refused. -/
def lines : Source (List UInt8) Field (Option (Fault QpackError)) where
  pull rest :=
    match rest with
    | [] => .inr none
    | first :: tail =>
      match fieldLine (first :: tail) first with
      | .ok item => .inl item
      | .error fault => .inr (some fault)
  size := List.length
  lowers {rest field rest'} h := by
    split at h
    · cases h
    · split at h
      · next hline =>
        cases h
        obtain ⟨line, hsplit, hfield⟩ := fieldLine_ok hline
        have hpos := hfield.length_pos
        rw [hsplit, List.length_append]
        omega
      · cases h

/-- Read a field section written without a dynamic table. -/
def decode (fieldSection : List UInt8) : Outcome (List Field) := do
  let (requiredInsertCount, used) ← getInt fieldSection 8
  let rest ← advance fieldSection used
  if requiredInsertCount ≠ 0 then refuse .dynamic
  else do
    let (_, used) ← getInt rest 7
    let rest ← advance rest used
    match lines.all rest with
    | (fields, none) => .ok fields
    | (_, some fault) => .error fault

lemma lines_of {encoded : List (List UInt8)} {fields : List Field}
    (h : List.Forall₂ FieldLine encoded fields) : lines.all encoded.flatten = (fields, none) := by
  induction h with
  | nil => exact lines.all_stop rfl
  | @cons line field encoded fields hline _ ih =>
    obtain ⟨first, more, rfl, hread⟩ := fieldLine_of hline encoded.flatten
    have hpull : lines.pull (first :: more ++ encoded.flatten) = .inl (field, encoded.flatten) := by
      rw [List.cons_append] at hread ⊢
      simp only [lines, hread]
    rw [List.flatten_cons, lines.all_item hpull, ih]

lemma lines_ok (rest : List UInt8) : (lines.all rest).2 = none →
    ∃ encoded, rest = encoded.flatten ∧ List.Forall₂ FieldLine encoded (lines.all rest).1 := by
  refine lines.all_rule (fun rest fields t => t = none →
    ∃ encoded, rest = encoded.flatten ∧ List.Forall₂ FieldLine encoded fields) ?_ ?_ rest
  · intro rest t hpull ht
    subst ht
    obtain _ | ⟨first, tail⟩ := rest
    · exact ⟨[], rfl, .nil⟩
    · simp only [lines] at hpull
      split at hpull <;> cases hpull
  · intro rest field rest' fields t hpull ih ht
    obtain ⟨encoded, rfl, hall⟩ := ih ht
    obtain _ | ⟨first, tail⟩ := rest
    · cases hpull
    · simp only [lines] at hpull
      split at hpull
      · next hline =>
        cases hpull
        obtain ⟨line, hsplit, hfield⟩ := fieldLine_ok hline
        exact ⟨line :: encoded, hsplit, .cons hfield hall⟩
      · cases hpull

lemma lines_safe (rest : List UInt8) : (lines.all rest).2 ≠ some .panic := by
  refine lines.all_rule (fun _ _ t => t ≠ some .panic) ?_ (fun _ _ _ _ _ _ ih => ih) rest
  intro rest t hpull ht
  subst ht
  obtain _ | ⟨first, tail⟩ := rest
  · cases hpull
  · simp only [lines] at hpull
    split at hpull
    · cases hpull
    · next hline =>
      cases hpull
      exact fieldLine_safe _ _ hline

/-- A field section of the grammar: no required inserts, a base of either sign, and field lines
that need no dynamic table. -/
def IsSection (fieldSection : List UInt8) (fields : List Field) : Prop :=
  ∃ inserts base encoded sign delta, fieldSection = inserts ++ base ++ List.flatten encoded ∧
    PrefixInt 8 0 inserts 0 ∧ PrefixInt 7 sign base delta ∧ List.Forall₂ FieldLine encoded fields

lemma decode_of {fieldSection : List UInt8} {fields : List Field}
    (h : IsSection fieldSection fields) : decode fieldSection = .ok fields := by
  obtain ⟨inserts, base, encoded, sign, delta, rfl, hinserts, hbase, hlines⟩ := h
  have hread := getInt_of (by omega) hinserts (base ++ encoded.flatten)
  have hdelta := getInt_of (by omega) hbase encoded.flatten
  rw [List.append_assoc, decode]
  simp only [hread, ok_bind, advance_append]
  rw [if_neg (by simp)]
  simp only [hdelta, ok_bind, advance_append, lines_of hlines]

lemma decode_ok {fieldSection : List UInt8} {fields : List Field}
    (h : decode fieldSection = .ok fields) : IsSection fieldSection fields := by
  unfold decode at h
  obtain ⟨⟨count, used⟩, hinserts, h⟩ := bind_eq_ok.1 h
  obtain ⟨inserts, rest, flags, rfl, rfl, hint⟩ := getInt_ok (by omega) hinserts
  simp only at h
  rw [advance_append, ok_bind] at h
  split at h
  · cases h
  · next hzero =>
    rw [not_not] at hzero
    subst hzero
    obtain ⟨⟨delta, used⟩, hbase, h⟩ := bind_eq_ok.1 h
    obtain ⟨base, rest, sign, rfl, rfl, hsigned⟩ := getInt_ok (by omega) hbase
    simp only at h
    rw [advance_append, ok_bind] at h
    split at h
    · next hall =>
      cases h
      have hlines := lines_ok rest
      rw [hall] at hlines
      obtain ⟨encoded, rfl, hfields⟩ := hlines rfl
      obtain ⟨first, tail, rfl, hflags⟩ := hint.first
      have hbyte := first.toNat_lt
      have h0 : flags = 0 := by omega
      exact ⟨_, base, encoded, sign, delta, (List.append_assoc _ _ _).symm, h0 ▸ hint, hsigned,
        hfields⟩
    · cases h

/-- **The decoder reads the static-only grammar and nothing else**: the sections of the grammar
give the fields they denote, and every other string is refused, with no integer overflowing and no
index out of range. -/
theorem decode_iff (fieldSection : List UInt8) :
    (∀ fields, decode fieldSection = .ok fields ↔ IsSection fieldSection fields) ∧
    ((∃ fields, decode fieldSection = .ok fields) ∨
      ∃ problem, decode fieldSection = .error (.refused problem)) := by
  refine ⟨fun fields => ⟨decode_ok, decode_of⟩, ?_⟩
  have hsafe : Safe (decode fieldSection) := by
    refine (getInt_safe (by omega) _).bind fun _ hint => ?_
    refine (advance_int_safe (by omega) hint).bind fun _ _ => ?_
    split
    · exact safe_refused _
    · refine (getInt_safe (by omega) _).bind fun _ hbase => ?_
      refine (advance_int_safe (by omega) hbase).bind fun rest _ => ?_
      have hlines := lines_safe rest
      split
      · exact safe_ok _
      · next hall =>
        rw [hall] at hlines
        intro hpanic
        cases hpanic
        exact hlines rfl
  cases hd : decode fieldSection with
  | ok fields => exact .inl ⟨fields, rfl⟩
  | error fault =>
    cases fault with
    | panic => exact absurd hd hsafe
    | refused problem => exact .inr ⟨problem, rfl⟩

end Qpack

end Masqr.Transport
