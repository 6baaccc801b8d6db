import Mathlib
import Masqr.Lib.Bytes

/-!
QUIC variable-length integers.
-/

namespace Masqr.Transport.Varint

open Masqr.Lib

/-- The largest value the encoding can carry. -/
def MAX : ℕ := 2 ^ 62 - 1

/-- The bytes written for a value, the two top bits of the first saying how many there are. -/
def put (value : ℕ) : List UInt8 :=
  if value < 64 then toBe 1 value
  else if value < 16384 then toBe 2 (0x4000 ||| value)
  else if value < 2 ^ 30 then toBe 4 (0x80000000 ||| value)
  else toBe 8 (0xc000000000000000 ||| value)

/-- How many bytes `put` uses for a value. -/
def len (value : ℕ) : ℕ :=
  if value < 64 then 1 else if value < 16384 then 2 else if value < 2 ^ 30 then 4 else 8

/-- The value at the front of a buffer and how many bytes it took, where a whole one is there. -/
def get (buf : List UInt8) : Option (ℕ × ℕ) :=
  match buf with
  | [] => none
  | first :: rest =>
    let len := 2 ^ (first.toNat / 64)
    if buf.length < len then none
    else some (ofBe (first.toNat % 64) (rest.take (len - 1)), len)

lemma length_put (value : ℕ) : (put value).length = len value := by
  unfold put len
  split_ifs <;> exact length_toBe _ _

/-- All that reading a value says of the buffer it was read from. -/
lemma get_some {buf : List UInt8} {value used : ℕ} (h : get buf = some (value, used)) :
    0 < used ∧ used ≤ 8 ∧ used ≤ buf.length ∧ value ≤ MAX := by
  obtain _ | ⟨first, rest⟩ := buf
  · cases h
  · have hfirst : first.toNat / 64 ≤ 3 := by have := first.toNat_lt; omega
    simp only [get] at h
    split at h
    · cases h
    · next hlen =>
      cases h
      have hlt := ofBe_lt (rest.take (2 ^ (first.toNat / 64) - 1)) (first.toNat % 64)
      have hpow : 0 < 2 ^ (first.toNat / 64) := Nat.two_pow_pos _
      have htake : (rest.take (2 ^ (first.toNat / 64) - 1)).length = 2 ^ (first.toNat / 64) - 1 := by
        rw [List.length_take]
        simp only [List.length_cons] at hlen
        omega
      rw [htake] at hlt
      refine ⟨hpow, Nat.pow_le_pow_right (by omega) hfirst, by omega, ?_⟩
      have hmod : first.toNat % 64 + 1 ≤ 64 := by omega
      have hbound : (first.toNat % 64 + 1) * 256 ^ (2 ^ (first.toNat / 64) - 1) ≤ 2 ^ 62 := by
        calc (first.toNat % 64 + 1) * 256 ^ (2 ^ (first.toNat / 64) - 1) ≤ 64 * 256 ^ 7 :=
              Nat.mul_le_mul hmod (Nat.pow_le_pow_right (by omega) (by
                have := Nat.pow_le_pow_right (n := 2) (by omega) hfirst
                omega))
          _ = 2 ^ 62 := by norm_num
      unfold MAX
      omega

/-- Bytes that arrive later do not change a value that is whole. -/
lemma get_append {buf : List UInt8} {value used : ℕ} (h : get buf = some (value, used))
    (more : List UInt8) : get (buf ++ more) = some (value, used) := by
  obtain _ | ⟨first, rest⟩ := buf
  · cases h
  · simp only [get] at h
    split at h
    · cases h
    · next hlen =>
      cases h
      have hpow : 0 < 2 ^ (first.toNat / 64) := Nat.two_pow_pos _
      simp only [List.length_cons] at hlen
      simp only [List.cons_append, get, List.length_cons, List.length_append]
      rw [if_neg (by omega), List.take_append_of_le_length (by omega)]

/-- Eight bytes are enough of a value, whichever it is. -/
lemma get_none {buf : List UInt8} (h : get buf = none) : buf.length < 8 := by
  obtain _ | ⟨first, rest⟩ := buf
  · simp
  · simp only [get] at h
    split at h
    · next hlen =>
      have hfirst : first.toNat / 64 ≤ 3 := by have := first.toNat_lt; omega
      have hpow := Nat.pow_le_pow_right (n := 2) (by omega) hfirst
      omega
    · cases h

/-! ### A type and a length -/

/-- The two values a record starts with, and how many bytes they took together. -/
def header (buf : List UInt8) : Option (ℕ × ℕ × ℕ) :=
  match get buf with
  | none => none
  | some (kind, kindLen) =>
    match get (buf.drop kindLen) with
    | none => none
    | some (length, lengthLen) => some (kind, length, kindLen + lengthLen)

lemma header_eq {buf : List UInt8} {kind length used : ℕ} (h : header buf = some (kind, length, used)) :
    ∃ kindLen lengthLen, get buf = some (kind, kindLen) ∧
      get (buf.drop kindLen) = some (length, lengthLen) ∧ used = kindLen + lengthLen := by
  unfold header at h
  split at h
  · cases h
  · next kind kindLen hk =>
    split at h
    · cases h
    · next length lengthLen hl =>
      cases h
      exact ⟨kindLen, lengthLen, hk, hl, rfl⟩

lemma header_some {buf : List UInt8} {kind length used : ℕ}
    (h : header buf = some (kind, length, used)) : 0 < used ∧ used ≤ 16 ∧ used ≤ buf.length := by
  obtain ⟨kindLen, lengthLen, hk, hl, rfl⟩ := header_eq h
  obtain ⟨hk0, hk8, hkb, -⟩ := get_some hk
  obtain ⟨-, hl8, hlb, -⟩ := get_some hl
  rw [List.length_drop] at hlb
  omega

lemma header_append {buf : List UInt8} {kind length used : ℕ}
    (h : header buf = some (kind, length, used)) (more : List UInt8) :
    header (buf ++ more) = some (kind, length, used) := by
  obtain ⟨kindLen, lengthLen, hk, hl, rfl⟩ := header_eq h
  have hkb : kindLen ≤ buf.length := (get_some hk).2.2.1
  unfold header
  rw [get_append hk]
  simp only
  rw [List.drop_append_of_le_length hkb, get_append hl]

lemma header_none {buf : List UInt8} (h : header buf = none) : buf.length < 16 := by
  unfold header at h
  split at h
  · next hk => have := get_none hk; omega
  · next kind kindLen hk =>
    split at h
    · next hl =>
      have hk8 := (get_some hk).2.1
      have hrest := get_none hl
      rw [List.length_drop] at hrest
      omega
    · cases h

/-- Bytes that are a value and nothing more, in as few bytes as it needs or in more. -/
def Encodes (bytes : List UInt8) (value : ℕ) : Prop := get bytes = some (value, bytes.length)

/-- What reading a value took is the value and nothing more. -/
lemma get_take {buf : List UInt8} {value used : ℕ} (h : get buf = some (value, used)) :
    Encodes (buf.take used) value := by
  have hused := (get_some h).2.2.1
  have hlen : (buf.take used).length = used := by rw [List.length_take, Nat.min_eq_left hused]
  obtain _ | ⟨first, rest⟩ := buf
  · cases h
  · simp only [get] at h
    split at h
    · cases h
    · next hfits =>
      cases h
      have hpow : 0 < 2 ^ (first.toNat / 64) := Nat.two_pow_pos _
      obtain ⟨n, hn⟩ : ∃ n, 2 ^ (first.toNat / 64) = n + 1 := ⟨_, (Nat.sub_add_cancel hpow).symm⟩
      rw [hn] at hlen ⊢
      rw [List.take_succ_cons] at hlen ⊢
      rw [Encodes, get, hlen, hn, if_neg (lt_irrefl _), Nat.add_sub_cancel, List.take_take,
        Nat.min_self]

lemma Encodes.pos {bytes : List UInt8} {value : ℕ} (h : Encodes bytes value) : 0 < bytes.length :=
  (get_some h).1

lemma header_of_encodes {kindBytes lengthBytes : List UInt8} {kind length : ℕ}
    (hk : Encodes kindBytes kind) (hl : Encodes lengthBytes length) (rest : List UInt8) :
    header (kindBytes ++ lengthBytes ++ rest) =
      some (kind, length, (kindBytes ++ lengthBytes).length) := by
  have hkind := get_append hk (lengthBytes ++ rest)
  have hlength := get_append hl rest
  unfold header
  rw [List.append_assoc, hkind]
  simp only
  rw [List.drop_left, hlength, List.length_append]

/-! ### What is written is read back -/

lemma get_tagged {k w value : ℕ} (hk : k < 4) (hw : 2 ^ k = w + 1) (hv : value < 64 * 256 ^ w)
    (rest : List UInt8) :
    get (toBe (w + 1) (k * 64 * 256 ^ w + value) ++ rest) = some (value, w + 1) := by
  have hpos : 0 < 256 ^ w := Nat.pow_pos (by omega)
  obtain ⟨top, htop⟩ : ∃ top, value / 256 ^ w = top := ⟨_, rfl⟩
  have hlt : top < 64 := by
    rw [← htop]
    exact Nat.div_lt_of_lt_mul (by rwa [Nat.mul_comm])
  have hfirst : (UInt8.ofNat ((k * 64 * 256 ^ w + value) / 256 ^ w)).toNat = k * 64 + top := by
    rw [UInt8.toNat_ofNat', Nat.mul_comm, Nat.mul_add_div hpos, htop]
    omega
  have hclass : (k * 64 + top) / 64 = k := by omega
  have hlow : (k * 64 + top) % 64 = top := by omega
  have htake : (toBe w (k * 64 * 256 ^ w + value) ++ rest).take w =
      toBe w (k * 64 * 256 ^ w + value) := List.take_left' (length_toBe _ _)
  have hrest : (k * 64 * 256 ^ w + value) % 256 ^ w = value % 256 ^ w := by
    rw [Nat.mul_comm, Nat.mul_add_mod]
  simp only [toBe, List.cons_append, get, hfirst, hclass, hlow, hw, List.length_cons,
    List.length_append, length_toBe, Nat.add_sub_cancel, htake]
  rw [if_neg (by omega), ofBe_toBe, hrest, ← htop, Nat.div_add_mod']

/-- **A value that fits is read back whole**, whatever follows it. -/
theorem get_put {value : ℕ} (h : value ≤ MAX) (rest : List UInt8) :
    get (put value ++ rest) = some (value, len value) := by
  unfold MAX at h
  unfold put len
  split_ifs with h1 h2 h3
  · have hshort : value < 64 * 256 ^ 0 := by omega
    simpa using get_tagged (k := 0) (by omega) rfl hshort rest
  · have hor : 0x4000 ||| value = 1 * 64 * 256 ^ 1 + value := by
      have := Nat.two_pow_add_eq_or_of_lt (i := 14) (b := value) (by omega) 1
      norm_num at this ⊢
      omega
    rw [hor]
    exact get_tagged (by omega) rfl (by omega) rest
  · have hor : 0x80000000 ||| value = 2 * 64 * 256 ^ 3 + value := by
      have := Nat.two_pow_add_eq_or_of_lt (i := 30) (b := value) (by omega) 2
      norm_num at this ⊢
      omega
    rw [hor]
    exact get_tagged (by omega) rfl (by omega) rest
  · have hor : 0xc000000000000000 ||| value = 3 * 64 * 256 ^ 7 + value := by
      have := Nat.two_pow_add_eq_or_of_lt (i := 62) (b := value) (by omega) 3
      norm_num at this ⊢
      omega
    rw [hor]
    exact get_tagged (by omega) rfl (by omega) rest

lemma put_encodes {value : ℕ} (h : value ≤ MAX) : Encodes (put value) value := by
  have hread := get_put h []
  rw [List.append_nil] at hread
  rw [Encodes, hread, length_put]

/-! ### The four classes -/

/-- The bytes of a value in the class of `2 ^ k` of them, whether or not it needs as many. -/
def coded (k value : ℕ) : List UInt8 := toBe (2 ^ k) (k * 2 ^ (8 * 2 ^ k - 2) + value)

lemma get_coded {k value : ℕ} (hk : k < 4) (hv : value < 2 ^ (8 * 2 ^ k - 2)) (rest : List UInt8) :
    get (coded k value ++ rest) = some (value, 2 ^ k) := by
  have hw : 2 ^ k = 2 ^ k - 1 + 1 := by
    have := Nat.two_pow_pos k
    omega
  have hclass : 2 ^ (8 * 2 ^ k - 2) = 64 * 256 ^ (2 ^ k - 1) := by
    interval_cases k <;> norm_num
  rw [hclass] at hv
  have htagged := get_tagged hk hw hv rest
  rw [← hw] at htagged
  rw [coded, hclass, ← Nat.mul_assoc]
  exact htagged

/-- **The bytes of a value are those of one of the four classes.** -/
lemma encodes_iff {bytes : List UInt8} {value : ℕ} :
    Encodes bytes value ↔ ∃ k < 4, value < 2 ^ (8 * 2 ^ k - 2) ∧ bytes = coded k value := by
  constructor
  · intro h
    obtain _ | ⟨first, rest⟩ := bytes
    · cases h
    · have hfirst : first.toNat / 64 < 4 := by
        have := first.toNat_lt
        omega
      rw [Encodes, get] at h
      split at h
      · cases h
      · rw [Option.some.injEq, Prod.mk.injEq] at h
        obtain ⟨hread, hlen⟩ := h
        rw [List.length_cons] at hlen
        rw [hlen, Nat.add_sub_cancel, List.take_length] at hread
        have hlow : first.toNat % 64 + 1 ≤ 64 := by omega
        have hbound := (ofBe_lt rest (first.toNat % 64)).trans_le (Nat.mul_le_mul_right _ hlow)
        have hclass : 2 ^ (8 * 2 ^ (first.toNat / 64) - 2) = 64 * 256 ^ rest.length := by
          rw [hlen, show 8 * (rest.length + 1) - 2 = 6 + 8 * rest.length by omega, pow_add, pow_mul]
          norm_num
        refine ⟨first.toNat / 64, hfirst, ?_, ?_⟩
        · rw [hclass, ← hread]
          exact hbound
        · have hwhole : 0 * 256 + first.toNat = first.toNat / 64 * 64 + first.toNat % 64 := by omega
          have hsplit : ofBe 0 (first :: rest) =
              first.toNat / 64 * (64 * 256 ^ rest.length) + value := by
            rw [ofBe_cons, hwhole, ofBe_add, hread, Nat.mul_assoc]
          have hbytes := toBe_ofBe (first :: rest) 0
          rw [hsplit, List.length_cons] at hbytes
          rw [coded, hclass, hlen]
          exact hbytes.symm
  · rintro ⟨k, hk, hv, rfl⟩
    have hread := get_coded hk hv []
    rw [List.append_nil] at hread
    rw [Encodes, hread, coded, length_toBe]

/-- Short of a whole value there is none. -/
lemma get_of_part {bytes part : List UInt8} {value : ℕ} (h : Encodes bytes value)
    (hpart : part <+: bytes) (hne : part ≠ bytes) : get part = none := by
  obtain ⟨rest, rfl⟩ := hpart
  cases hget : get part with
  | none => rfl
  | some found =>
    obtain ⟨value', used⟩ := found
    have hused := (get_some hget).2.2.1
    have hsame : some (value', used) = some (value, (part ++ rest).length) :=
      (get_append hget rest).symm.trans h
    cases hsame
    rw [List.length_append] at hused
    obtain rfl : rest = [] := List.length_eq_zero_iff.1 (by omega)
    exact absurd (List.append_nil part).symm hne

lemma used_class {buf : List UInt8} {value used : ℕ} (h : get buf = some (value, used)) :
    used ∈ [1, 2, 4, 8] ∧ len value ≤ used := by
  obtain ⟨k, hk, hv, hbytes⟩ := encodes_iff.1 (get_take h)
  have hused : used = 2 ^ k := by
    have hlen := congrArg List.length hbytes
    rw [List.length_take, coded, length_toBe, Nat.min_eq_left (get_some h).2.2.1] at hlen
    exact hlen
  subst hused
  unfold len
  interval_cases k
  all_goals
    norm_num at hv ⊢
    split_ifs <;> omega

/-! ### In words of 64 bits -/

namespace Words

/-- The largest value the encoding can carry. -/
def MAX : UInt64 := ((1 : UInt64) <<< 62) - 1

/-- The bytes written for a value, the two top bits of the first saying how many there are. A value
over `MAX` is the caller's slip, at which a debug build stops. -/
def put (value : UInt64) : List UInt8 :=
  if value < 64 then [value.toUInt8]
  else if value < 16384 then toBe 2 (0x4000 ||| value.toUInt16).toNat
  else if value < (1 : UInt64) <<< 30 then toBe 4 (0x80000000 ||| value.toUInt32).toNat
  else toBe 8 (0xc000000000000000 ||| value).toNat

/-- How many bytes `put` uses for a value. -/
def len (value : UInt64) : ℕ :=
  if value < 64 then 1 else if value < 16384 then 2 else if value < (1 : UInt64) <<< 30 then 4 else 8

/-- One more byte, behind those that are there. -/
def shiftIn (value : UInt64) (byte : UInt8) : UInt64 := (value <<< 8) ||| byte.toUInt64

/-- The value at the front of a buffer and how many bytes it took, where a whole one is there. -/
def get (buf : List UInt8) : Option (UInt64 × ℕ) :=
  match buf with
  | [] => none
  | first :: _ =>
    let len := 1 <<< (first >>> 6).toNat
    if buf.length < len then none
    else some (((buf.take len).drop 1).foldl shiftIn (first &&& 0x3f).toUInt64, len)

lemma toNat_lt_literal (value : UInt64) :
    (value < 64 ↔ value.toNat < 64) ∧ (value < 16384 ↔ value.toNat < 16384) ∧
      (value < (1 : UInt64) <<< 30 ↔ value.toNat < 2 ^ 30) := by
  exact ⟨UInt64.lt_iff_toNat_lt, UInt64.lt_iff_toNat_lt, UInt64.lt_iff_toNat_lt⟩

lemma le_MAX {value : UInt64} : value ≤ MAX ↔ value.toNat ≤ Varint.MAX := UInt64.le_iff_toNat_le

lemma len_eq (value : UInt64) : len value = Varint.len value.toNat := by
  obtain ⟨h1, h2, h3⟩ := toNat_lt_literal value
  simp only [len, Varint.len, h1, h2, h3]

lemma put_eq (value : UInt64) : put value = Varint.put value.toNat := by
  obtain ⟨h1, h2, h3⟩ := toNat_lt_literal value
  unfold put Varint.put
  simp only [h1, h2, h3]
  split_ifs with hone htwo hfour
  · have hbyte : value.toUInt8 = UInt8.ofNat value.toNat := UInt8.toNat_inj.1 (by simp)
    rw [hbyte]
    simp [toBe]
  · congr 1
    rw [UInt16.toNat_or, UInt64.toNat_toUInt16, Nat.mod_eq_of_lt (by omega)]
    rfl
  · congr 1
    rw [UInt32.toNat_or, UInt64.toNat_toUInt32, Nat.mod_eq_of_lt (by omega)]
    rfl
  · rw [UInt64.toNat_or]
    rfl

/-- The bits that come in take the place of those that the shift left free. -/
lemma toNat_shiftIn {value : UInt64} (h : value.toNat < 2 ^ 56) (byte : UInt8) :
    (shiftIn value byte).toNat = value.toNat * 256 + byte.toNat := by
  have hor := Nat.two_pow_add_eq_or_of_lt (i := 8) byte.toNat_lt value.toNat
  have hfits : value.toNat * 2 ^ 8 < 2 ^ 64 := by omega
  have hshift : (value <<< 8).toNat = 2 ^ 8 * value.toNat := by
    rw [UInt64.toNat_shiftLeft, show (8 : UInt64).toNat % 64 = 8 from rfl, Nat.shiftLeft_eq,
      Nat.mod_eq_of_lt hfits, Nat.mul_comm]
  rw [shiftIn, UInt64.toNat_or, hshift, UInt8.toNat_toUInt64, ← hor]
  omega

/-- A loop over few enough bytes loses no bit. -/
lemma toNat_foldl (bytes : List UInt8) {value : UInt64}
    (h : (value.toNat + 1) * 256 ^ bytes.length ≤ 2 ^ 64) :
    (bytes.foldl shiftIn value).toNat = ofBe value.toNat bytes := by
  induction bytes generalizing value with
  | nil => rfl
  | cons byte bytes ih =>
    have hbyte := byte.toNat_lt
    have hpos : 0 < 256 ^ bytes.length := Nat.pow_pos (by omega)
    rw [List.length_cons, pow_succ, Nat.mul_comm (256 ^ bytes.length), ← Nat.mul_assoc] at h
    have hfits : (value.toNat + 1) * 256 ≤ 2 ^ 64 := (Nat.le_mul_of_pos_right _ hpos).trans h
    have hsmall : value.toNat < 2 ^ 56 := by omega
    have hstep := toNat_shiftIn hsmall byte
    rw [List.foldl_cons, ofBe_cons, ih, hstep]
    rw [hstep]
    exact (Nat.mul_le_mul_right _ (by omega)).trans h

/-- **The loop of shifts reads what the digits spell.** -/
lemma get_eq (buf : List UInt8) :
    (get buf).map (fun read => (read.1.toNat, read.2)) = Varint.get buf := by
  obtain _ | ⟨first, rest⟩ := buf
  · rfl
  · have hfirst : first.toNat / 64 ≤ 3 := by
      have := first.toNat_lt
      omega
    have hclass : 1 <<< (first >>> 6).toNat = 2 ^ (first.toNat / 64) := by
      rw [Nat.one_shiftLeft, UInt8.toNat_shiftRight, show (6 : UInt8).toNat % 8 = 6 from rfl,
        Nat.shiftRight_eq_div_pow]
    have hlow : (first &&& 0x3f).toUInt64.toNat = first.toNat % 64 := by
      rw [UInt8.toNat_toUInt64, UInt8.toNat_and]
      exact Nat.and_two_pow_sub_one_eq_mod first.toNat 6
    have hpow := Nat.two_pow_pos (first.toNat / 64)
    have hbytes : ((first :: rest).take (2 ^ (first.toNat / 64))).drop 1 =
        rest.take (2 ^ (first.toNat / 64) - 1) := by
      rw [List.drop_take, List.drop_one, List.tail_cons]
    simp only [get, Varint.get, hclass, hbytes]
    split_ifs with hshort
    · rfl
    · have hlen : (rest.take (2 ^ (first.toNat / 64) - 1)).length ≤ 7 := by
        have := Nat.pow_le_pow_right (n := 2) (by omega) hfirst
        rw [List.length_take]
        omega
      have hroom : (first.toNat % 64 + 1) *
          256 ^ (rest.take (2 ^ (first.toNat / 64) - 1)).length ≤ 2 ^ 64 :=
        (Nat.mul_le_mul (show first.toNat % 64 + 1 ≤ 64 by omega)
          (Nat.pow_le_pow_right (by omega) hlen)).trans (by norm_num)
      rw [← hlow] at hroom
      have hloop := toNat_foldl (rest.take (2 ^ (first.toNat / 64) - 1)) hroom
      rw [hlow] at hloop
      rw [Option.map_some, hloop]

lemma get_eq_some {buf : List UInt8} {value : UInt64} {used : ℕ} :
    get buf = some (value, used) ↔ Varint.get buf = some (value.toNat, used) := by
  rw [← get_eq, Option.map_eq_some_iff]
  constructor
  · intro h
    exact ⟨_, h, rfl⟩
  · rintro ⟨⟨value', used'⟩, h, heq⟩
    obtain ⟨hvalue, rfl⟩ := Prod.mk.inj heq
    obtain rfl : value' = value := UInt64.toNat_inj.1 hvalue
    exact h

lemma get_eq_none {buf : List UInt8} : get buf = none ↔ Varint.get buf = none := by
  rw [← get_eq, Option.map_eq_none_iff]

end Words

open Words in
/-- **Varints keep a stream in step.** What is written is read back as it was, whatever follows; what
is read fits 62 bits and the bytes it was read from, which are one, two, four or eight and never
fewer than the value needs; and of the bytes of a value, in whichever class, no part short of all of
them is read. -/
theorem varint_in_step :
    (∀ value, value ≤ Words.MAX → ∀ rest,
      Words.get (Words.put value ++ rest) = some (value, Words.len value)) ∧
    (∀ buf value used, Words.get buf = some (value, used) →
      value ≤ Words.MAX ∧ used ≤ buf.length ∧ used ∈ [1, 2, 4, 8] ∧ Words.len value ≤ used) ∧
    ∀ k < 4, ∀ value < 2 ^ (8 * 2 ^ k - 2), ∀ part, part <+: coded k value →
      part ≠ coded k value → Words.get part = none := by
  refine ⟨fun value h rest => ?_, fun buf value used h => ?_,
    fun k hk value hv part hpart hne => ?_⟩
  · rw [get_eq_some, put_eq, len_eq]
    exact get_put (le_MAX.1 h) rest
  · rw [get_eq_some] at h
    obtain ⟨-, -, hused, hmax⟩ := get_some h
    obtain ⟨hclass, hlen⟩ := used_class h
    rw [len_eq]
    exact ⟨le_MAX.2 hmax, hused, hclass, hlen⟩
  · exact get_eq_none.2 (get_of_part (encodes_iff.2 ⟨k, hk, hv, rfl⟩) hpart hne)

end Masqr.Transport.Varint
