import Mathlib
import Masqr.Lib.Fault
import Masqr.Lib.PrefixCode

/-!
The Huffman code that header strings are compressed with, the decoding side.
-/

namespace Masqr.Transport

open Masqr.Lib

namespace Huffman

/-- Each symbol's code and its length in bits, by symbol; the last is EOS. -/
def CODES : List (ℕ × ℕ) :=
  [(0x1ff8, 13), (0x7fffd8, 23), (0xfffffe2, 28), (0xfffffe3, 28), (0xfffffe4, 28),
   (0xfffffe5, 28), (0xfffffe6, 28), (0xfffffe7, 28), (0xfffffe8, 28), (0xffffea, 24),
   (0x3ffffffc, 30), (0xfffffe9, 28), (0xfffffea, 28), (0x3ffffffd, 30), (0xfffffeb, 28),
   (0xfffffec, 28), (0xfffffed, 28), (0xfffffee, 28), (0xfffffef, 28), (0xffffff0, 28),
   (0xffffff1, 28), (0xffffff2, 28), (0x3ffffffe, 30), (0xffffff3, 28), (0xffffff4, 28),
   (0xffffff5, 28), (0xffffff6, 28), (0xffffff7, 28), (0xffffff8, 28), (0xffffff9, 28),
   (0xffffffa, 28), (0xffffffb, 28), (0x14, 6), (0x3f8, 10), (0x3f9, 10), (0xffa, 12),
   (0x1ff9, 13), (0x15, 6), (0xf8, 8), (0x7fa, 11), (0x3fa, 10), (0x3fb, 10), (0xf9, 8),
   (0x7fb, 11), (0xfa, 8), (0x16, 6), (0x17, 6), (0x18, 6), (0x0, 5), (0x1, 5), (0x2, 5),
   (0x19, 6), (0x1a, 6), (0x1b, 6), (0x1c, 6), (0x1d, 6), (0x1e, 6), (0x1f, 6), (0x5c, 7),
   (0xfb, 8), (0x7ffc, 15), (0x20, 6), (0xffb, 12), (0x3fc, 10), (0x1ffa, 13), (0x21, 6),
   (0x5d, 7), (0x5e, 7), (0x5f, 7), (0x60, 7), (0x61, 7), (0x62, 7), (0x63, 7), (0x64, 7),
   (0x65, 7), (0x66, 7), (0x67, 7), (0x68, 7), (0x69, 7), (0x6a, 7), (0x6b, 7), (0x6c, 7),
   (0x6d, 7), (0x6e, 7), (0x6f, 7), (0x70, 7), (0x71, 7), (0x72, 7), (0xfc, 8), (0x73, 7),
   (0xfd, 8), (0x1ffb, 13), (0x7fff0, 19), (0x1ffc, 13), (0x3ffc, 14), (0x22, 6), (0x7ffd, 15),
   (0x3, 5), (0x23, 6), (0x4, 5), (0x24, 6), (0x5, 5), (0x25, 6), (0x26, 6), (0x27, 6), (0x6, 5),
   (0x74, 7), (0x75, 7), (0x28, 6), (0x29, 6), (0x2a, 6), (0x7, 5), (0x2b, 6), (0x76, 7),
   (0x2c, 6), (0x8, 5), (0x9, 5), (0x2d, 6), (0x77, 7), (0x78, 7), (0x79, 7), (0x7a, 7), (0x7b, 7),
   (0x7ffe, 15), (0x7fc, 11), (0x3ffd, 14), (0x1ffd, 13), (0xffffffc, 28), (0xfffe6, 20),
   (0x3fffd2, 22), (0xfffe7, 20), (0xfffe8, 20), (0x3fffd3, 22), (0x3fffd4, 22), (0x3fffd5, 22),
   (0x7fffd9, 23), (0x3fffd6, 22), (0x7fffda, 23), (0x7fffdb, 23), (0x7fffdc, 23), (0x7fffdd, 23),
   (0x7fffde, 23), (0xffffeb, 24), (0x7fffdf, 23), (0xffffec, 24), (0xffffed, 24), (0x3fffd7, 22),
   (0x7fffe0, 23), (0xffffee, 24), (0x7fffe1, 23), (0x7fffe2, 23), (0x7fffe3, 23), (0x7fffe4, 23),
   (0x1fffdc, 21), (0x3fffd8, 22), (0x7fffe5, 23), (0x3fffd9, 22), (0x7fffe6, 23), (0x7fffe7, 23),
   (0xffffef, 24), (0x3fffda, 22), (0x1fffdd, 21), (0xfffe9, 20), (0x3fffdb, 22), (0x3fffdc, 22),
   (0x7fffe8, 23), (0x7fffe9, 23), (0x1fffde, 21), (0x7fffea, 23), (0x3fffdd, 22), (0x3fffde, 22),
   (0xfffff0, 24), (0x1fffdf, 21), (0x3fffdf, 22), (0x7fffeb, 23), (0x7fffec, 23), (0x1fffe0, 21),
   (0x1fffe1, 21), (0x3fffe0, 22), (0x1fffe2, 21), (0x7fffed, 23), (0x3fffe1, 22), (0x7fffee, 23),
   (0x7fffef, 23), (0xfffea, 20), (0x3fffe2, 22), (0x3fffe3, 22), (0x3fffe4, 22), (0x7ffff0, 23),
   (0x3fffe5, 22), (0x3fffe6, 22), (0x7ffff1, 23), (0x3ffffe0, 26), (0x3ffffe1, 26), (0xfffeb, 20),
   (0x7fff1, 19), (0x3fffe7, 22), (0x7ffff2, 23), (0x3fffe8, 22), (0x1ffffec, 25), (0x3ffffe2, 26),
   (0x3ffffe3, 26), (0x3ffffe4, 26), (0x7ffffde, 27), (0x7ffffdf, 27), (0x3ffffe5, 26),
   (0xfffff1, 24), (0x1ffffed, 25), (0x7fff2, 19), (0x1fffe3, 21), (0x3ffffe6, 26),
   (0x7ffffe0, 27), (0x7ffffe1, 27), (0x3ffffe7, 26), (0x7ffffe2, 27), (0xfffff2, 24),
   (0x1fffe4, 21), (0x1fffe5, 21), (0x3ffffe8, 26), (0x3ffffe9, 26), (0xffffffd, 28),
   (0x7ffffe3, 27), (0x7ffffe4, 27), (0x7ffffe5, 27), (0xfffec, 20), (0xfffff3, 24), (0xfffed, 20),
   (0x1fffe6, 21), (0x3fffe9, 22), (0x1fffe7, 21), (0x1fffe8, 21), (0x7ffff3, 23), (0x3fffea, 22),
   (0x3fffeb, 22), (0x1ffffee, 25), (0x1ffffef, 25), (0xfffff4, 24), (0xfffff5, 24),
   (0x3ffffea, 26), (0x7ffff4, 23), (0x3ffffeb, 26), (0x7ffffe6, 27), (0x3ffffec, 26),
   (0x3ffffed, 26), (0x7ffffe7, 27), (0x7ffffe8, 27), (0x7ffffe9, 27), (0x7ffffea, 27),
   (0x7ffffeb, 27), (0xffffffe, 28), (0x7ffffec, 27), (0x7ffffed, 27), (0x7ffffee, 27),
   (0x7ffffef, 27), (0x7fffff0, 27), (0x3ffffee, 26), (0x3fffffff, 30)]

def EOS : ℕ := 256
def LONGEST : ℕ := 30

/-- How many symbols have a code of each length. -/
def COUNT : List ℕ :=
  CODES.foldl (fun count code => count.set code.2 (count.getD code.2 0 + 1))
    (List.replicate (LONGEST + 1) 0)

/-- Where the symbols of each length start among the symbols by length. -/
def next : List ℕ :=
  (List.range LONGEST).foldl
    (fun next length => next ++ [next.getD length 0 + COUNT.getD length 0]) [0]

/-- The symbols by code length and, within one length, by symbol. -/
def SYMBOLS : List ℕ :=
  (CODES.zipIdx.foldl
    (fun s code =>
      let length := code.1.2
      (s.1.set length (s.1.getD length 0 + 1), s.2.set (s.1.getD length 0) code.2))
    (next, List.replicate 257 0)).2

/-- Why a coded string could not be read. -/
inductive HuffmanError
  | eos
  | padding
  deriving DecidableEq

def HuffmanError.text : HuffmanError → String
  | .eos => "the string codes the end-of-string symbol"
  | .padding => "the string ends in padding longer than seven bits or not made of ones"

/-- Where the decoder stands: what it has decoded, and the code it is inside. -/
structure Reading where
  out : List UInt8
  code : ℕ
  first : ℕ
  index : ℕ
  length : ℕ
  allOnes : Bool
  deriving DecidableEq

/-- Past a whole symbol. -/
def Reading.fresh (out : List UInt8) : Reading := ⟨out, 0, 0, 0, 0, true⟩

/-- One bit. -/
def step (s : Reading) (bit : Bool) : Except (Fault HuffmanError) Reading :=
  let code := s.code ||| bit.toNat
  let allOnes := s.allOnes && bit
  let length := s.length + 1
  match COUNT[length]? with
  | none => .error .panic
  | some count =>
    if code < s.first then .error .panic
    else if code - s.first < count then
      match SYMBOLS[s.index + (code - s.first)]? with
      | none => .error .panic
      | some symbol =>
        if symbol = EOS then .error (.refused .eos)
        else .ok (.fresh (s.out ++ [UInt8.ofNat symbol]))
    else if 2 ^ 32 ≤ s.first + count then .error .panic
    else .ok ⟨s.out, code * 2 % 2 ^ 32, (s.first + count) * 2 % 2 ^ 32, s.index + count, length,
      allOnes⟩

/-- The bits of a byte, the greatest first. -/
def byteBits (byte : UInt8) : List Bool := toBits 8 byte.toNat

/-- Decode a coded string. -/
def decode (input : List UInt8) : Except (Fault HuffmanError) (List UInt8) :=
  match (input.flatMap byteBits).foldlM step (.fresh []) with
  | .error problem => .error problem
  | .ok s => if 7 < s.length ∨ s.allOnes = false then .error (.refused .padding) else .ok s.out

/-! ### The code -/

lemma count_table : COUNT = [0, 0, 0, 0, 0, 10, 26, 32, 6, 0, 5, 3, 2, 6, 2, 3, 0, 0, 0, 3, 8, 13,
    26, 29, 12, 4, 15, 19, 29, 0, 4] := by decide +kernel

/-- The code the table is. -/
def prefixCode : PrefixCode where
  count length := COUNT.getD length 0
  longest := LONGEST
  count_zero := by rw [count_table]; rfl
  complete := by
    rw [count_table]
    decide +kernel

lemma count_eq : prefixCode.count = fun length => ([0, 0, 0, 0, 0, 10, 26, 32, 6, 0, 5, 3, 2, 6, 2,
    3, 0, 0, 0, 3, 8, 13, 26, 29, 12, 4, 15, 19, 29, 0, 4] : List ℕ).getD length 0 := by
  funext length
  simp only [prefixCode, count_table]

/-- The bits of a symbol. -/
def word (symbol : ℕ) : List Bool :=
  toBits (CODES.getD symbol (0, 0)).2 (CODES.getD symbol (0, 0)).1

@[simp] lemma codes_length : CODES.length = 257 := by decide +kernel

lemma count_getElem {length : ℕ} (h : length ≤ LONGEST) :
    COUNT[length]? = some (prefixCode.count length) := by
  have hlen : COUNT.length = LONGEST + 1 := by rw [count_table]; rfl
  have hlt : length < COUNT.length := by omega
  simp only [prefixCode, List.getD_eq_getElem COUNT 0 hlt, List.getElem?_eq_getElem hlt]

lemma symbols_eq : SYMBOLS = [
    48, 49, 50, 97, 99, 101, 105, 111, 115, 116, 32, 37, 45, 46, 47, 51, 52, 53, 54, 55, 56,
    57, 61, 65, 95, 98, 100, 102, 103, 104, 108, 109, 110, 112, 114, 117, 58, 66, 67, 68, 69,
    70, 71, 72, 73, 74, 75, 76, 77, 78, 79, 80, 81, 82, 83, 84, 85, 86, 87, 89, 106, 107, 113,
    118, 119, 120, 121, 122, 38, 42, 44, 59, 88, 90, 33, 34, 40, 41, 63, 39, 43, 124, 35, 62,
    0, 36, 64, 91, 93, 126, 94, 125, 60, 96, 123, 92, 195, 208, 128, 130, 131, 162, 184, 194,
    224, 226, 153, 161, 167, 172, 176, 177, 179, 209, 216, 217, 227, 229, 230, 129, 132, 133,
    134, 136, 146, 154, 156, 160, 163, 164, 169, 170, 173, 178, 181, 185, 186, 187, 189, 190,
    196, 198, 228, 232, 233, 1, 135, 137, 138, 139, 140, 141, 143, 147, 149, 150, 151, 152,
    155, 157, 158, 165, 166, 168, 174, 175, 180, 182, 183, 188, 191, 197, 231, 239, 9, 142,
    144, 145, 148, 159, 171, 206, 215, 225, 236, 237, 199, 207, 234, 235, 192, 193, 200, 201,
    202, 205, 210, 213, 218, 219, 238, 240, 242, 243, 255, 203, 204, 211, 212, 214, 221, 222,
    223, 241, 244, 245, 246, 247, 248, 250, 251, 252, 253, 254, 2, 3, 4, 5, 6, 7, 8, 11, 12,
    14, 15, 16, 17, 18, 19, 20, 21, 23, 24, 25, 26, 27, 28, 29, 30, 31, 127, 220, 249, 10, 13,
    22, 256] := by
  decide +kernel

/-- The entry of a symbol. -/
lemma mem_codes {symbol : ℕ} (h : symbol < 257) :
    (CODES.getD symbol (0, 0), symbol) ∈ CODES.zipIdx := by
  have hlt : symbol < CODES.length := by rw [codes_length]; exact h
  rw [List.mem_zipIdx_iff_getElem?, List.getElem?_eq_getElem hlt,
    ← List.getD_eq_getElem CODES (0, 0) hlt]

/-- Each entry of the table is one of the codes of its length, and its symbol is found at the
place of the code. -/
lemma codes_canonical : ∀ entry ∈ CODES.zipIdx,
    PrefixCode.first prefixCode.count entry.1.2 ≤ entry.1.1 ∧
    entry.1.1 < PrefixCode.first prefixCode.count entry.1.2 + prefixCode.count entry.1.2 ∧
    entry.1.1 < 2 ^ entry.1.2 ∧ entry.1.2 ≤ LONGEST ∧
    SYMBOLS[PrefixCode.index prefixCode.count entry.1.2 +
      (entry.1.1 - PrefixCode.first prefixCode.count entry.1.2)]? = some entry.2 := by
  rw [count_eq, symbols_eq]
  decide +kernel

/-- Each code of each length is the table's entry for the symbol at its place. -/
lemma symbols_complete : ∀ length ≤ LONGEST, ∀ offset < prefixCode.count length,
    (SYMBOLS[PrefixCode.index prefixCode.count length + offset]?).bind (CODES[·]?) =
      some (PrefixCode.first prefixCode.count length + offset, length) := by
  rw [count_eq, symbols_eq]
  decide +kernel

/-- Fewer than eight ones end no code. -/
lemma ones_past : ∀ length ≤ 7,
    PrefixCode.first prefixCode.count length + prefixCode.count length ≤
      bitsValue (List.replicate length true) := by
  rw [count_eq]
  decide +kernel

lemma word_isCode {symbol : ℕ} (h : symbol < 257) : prefixCode.IsCode (word symbol) := by
  obtain ⟨hle, hlt, hfits, -, -⟩ := codes_canonical _ (mem_codes h)
  unfold PrefixCode.IsCode word
  rw [length_toBits, bitsValue_toBits hfits]
  exact ⟨hle, hlt⟩

lemma position_word {symbol : ℕ} (h : symbol < 257) :
    SYMBOLS[prefixCode.position (word symbol)]? = some symbol := by
  obtain ⟨-, -, hfits, -, hplace⟩ := codes_canonical _ (mem_codes h)
  unfold PrefixCode.position word
  rw [length_toBits, bitsValue_toBits hfits]
  exact hplace

/-- Every code is the bits of a symbol, found at the place of the code. -/
lemma symbol_of_isCode {bits : List Bool} (h : prefixCode.IsCode bits)
    (hlen : bits.length ≤ LONGEST) :
    ∃ symbol < 257, SYMBOLS[prefixCode.position bits]? = some symbol ∧ word symbol = bits := by
  have hoffset : bitsValue bits - PrefixCode.first prefixCode.count bits.length <
      prefixCode.count bits.length := by
    have hle := h.1
    have hlt := h.2
    omega
  have hentry := symbols_complete bits.length hlen _ hoffset
  rw [Nat.add_sub_cancel' h.1] at hentry
  obtain ⟨symbol, hsymbol, hcode⟩ := Option.bind_eq_some_iff.1 hentry
  obtain ⟨hlt, hget⟩ := List.getElem?_eq_some_iff.1 hcode
  refine ⟨symbol, codes_length ▸ hlt, hsymbol, ?_⟩
  have hword : CODES.getD symbol (0, 0) = (bitsValue bits, bits.length) := by
    rw [List.getD_eq_getElem CODES (0, 0) hlt, hget]
  rw [word, hword]
  exact toBits_bitsValue bits

/-! ### Bit by bit -/

/-- Where the decoder stands after whole symbols and some bits of the next. -/
def reading (out : List UInt8) (bits : List Bool) : Reading :=
  ⟨out, 2 * bitsValue bits, PrefixCode.first prefixCode.count (bits.length + 1),
    PrefixCode.index prefixCode.count (bits.length + 1), bits.length, bits.all id⟩

lemma reading_nil (out : List UInt8) : reading out [] = .fresh out := by
  have hfirst : PrefixCode.first prefixCode.count 1 = 0 := by
    rw [PrefixCode.first, PrefixCode.first, prefixCode.count_zero]
  have hindex : PrefixCode.index prefixCode.count 1 = 0 := by
    rw [PrefixCode.index, PrefixCode.index, prefixCode.count_zero]
  simp only [reading, Reading.fresh, bitsValue_nil, List.length_nil, hfirst, hindex, List.all_nil]

lemma code_or (bits : List Bool) (b : Bool) :
    (2 * bitsValue bits ||| b.toNat) = bitsValue (bits ++ [b]) := by
  rw [bitsValue_snoc]
  have hb : b.toNat < 2 ^ 1 := by have := b.toNat_le; omega
  have hor := Nat.two_pow_add_eq_or_of_lt hb (bitsValue bits)
  rw [pow_one] at hor
  exact hor.symm

lemma step_open {bits : List Bool} {b : Bool} (h : prefixCode.Open (bits ++ [b]))
    (out : List UInt8) : step (reading out bits) b = .ok (reading out (bits ++ [b])) := by
  have hlen : (bits ++ [b]).length < 30 := h.length_lt
  have hle := h.le
  have hlt := bitsValue_lt (bits ++ [b])
  have hpow : 2 ^ (bits ++ [b]).length ≤ 2 ^ 30 := Nat.pow_le_pow_right (by omega) hlen.le
  have hsmall : bitsValue (bits ++ [b]) * 2 < 2 ^ 32 := by omega
  rw [List.length_append, List.length_singleton] at hle hlen
  have hcount : COUNT[bits.length + 1]? = some (prefixCode.count (bits.length + 1)) :=
    count_getElem hlen.le
  have hall : (bits.all id && b) = (bits ++ [b]).all id := by simp
  unfold step
  simp only [reading, code_or, hcount]
  rw [if_neg (by omega), if_neg (by omega), if_neg (by omega), Nat.mod_eq_of_lt hsmall,
    Nat.mod_eq_of_lt (by omega), hall, List.length_append, List.length_singleton]
  simp only [PrefixCode.first, PrefixCode.index, Nat.mul_comm _ 2]

lemma step_code {bits : List Bool} {b : Bool} {symbol : ℕ}
    (h : prefixCode.IsCode (bits ++ [b])) (hlen : (bits ++ [b]).length ≤ LONGEST)
    (hs : SYMBOLS[prefixCode.position (bits ++ [b])]? = some symbol) (out : List UInt8) :
    step (reading out bits) b =
      if symbol = EOS then .error (.refused .eos)
      else .ok (.fresh (out ++ [UInt8.ofNat symbol])) := by
  obtain ⟨hle, hlt⟩ := h
  rw [PrefixCode.position] at hs
  rw [List.length_append, List.length_singleton] at hle hlt hlen hs
  have hcount : COUNT[bits.length + 1]? = some (prefixCode.count (bits.length + 1)) :=
    count_getElem hlen
  unfold step
  simp only [reading, code_or, hcount]
  rw [if_neg (by omega), if_pos (by omega), hs]

/-- **One bit** from within a code: the code ends there, or it goes on. -/
theorem step_cases (out : List UInt8) {bits : List Bool} (hopen : prefixCode.Open bits) (b : Bool) :
    (step (reading out bits) b = .error (.refused .eos) ∧ bits ++ [b] = word EOS) ∨
    (∃ symbol < 256, bits ++ [b] = word symbol ∧
      step (reading out bits) b = .ok (reading (out ++ [UInt8.ofNat symbol]) [])) ∨
    (prefixCode.Open (bits ++ [b]) ∧
      step (reading out bits) b = .ok (reading out (bits ++ [b]))) := by
  by_cases hcode : prefixCode.IsCode (bits ++ [b])
  · have hlen : (bits ++ [b]).length ≤ LONGEST := by
      have hlt : bits.length < LONGEST := hopen.length_lt
      simpa using hlt
    obtain ⟨symbol, hsymbol, hget, hword⟩ := symbol_of_isCode hcode hlen
    have hstep := step_code hcode hlen hget out
    by_cases heos : symbol = EOS
    · rw [if_pos heos] at hstep
      exact .inl ⟨hstep, by rw [← hword, heos]⟩
    · rw [if_neg heos, ← reading_nil] at hstep
      have hlt : symbol < 256 := by unfold EOS at heos; omega
      exact .inr (.inl ⟨symbol, hlt, hword.symm, hstep⟩)
  · have hnext := hopen.snoc hcode
    exact .inr (.inr ⟨hnext, step_open hnext out⟩)

/-- The codes of a string, one after another. -/
def codes (out : List UInt8) : List Bool := out.flatMap fun b => word b.toNat

/-- A coded string: the codes of its bytes, and at most seven ones that fill the last byte. -/
def Coded (input out : List UInt8) : Prop :=
  ∃ padding : List Bool, input.flatMap byteBits = codes out ++ padding ∧ padding.length ≤ 7 ∧
    ∀ b ∈ padding, b = true

/-- **A run of bits** codes the end of the string, or whole symbols and the start of one. -/
theorem run_cases (bits w : List Bool) (out : List UInt8) (hopen : prefixCode.Open w) :
    bits.foldlM step (reading out w) = .error (.refused .eos) ∨
    ∃ more w', prefixCode.Open w' ∧ w ++ bits = codes more ++ w' ∧
      bits.foldlM step (reading out w) = .ok (reading (out ++ more) w') := by
  induction bits generalizing w out with
  | nil => exact .inr ⟨[], w, hopen, by simp [codes], by simp [pure, Except.pure]⟩
  | cons b bits ih =>
    rw [List.foldlM_cons]
    rcases step_cases out hopen b with ⟨hstep, -⟩ | ⟨symbol, hsymbol, hword, hstep⟩ |
      ⟨hnext, hstep⟩
    · rw [hstep]
      exact .inl rfl
    · rw [hstep]
      rcases ih [] (out ++ [UInt8.ofNat symbol]) PrefixCode.open_nil with herror |
        ⟨more, w', hw', hbits, hrun⟩
      · exact .inl herror
      · refine .inr ⟨UInt8.ofNat symbol :: more, w', hw', ?_, by
          simpa [bind, Except.bind, List.append_assoc] using hrun⟩
        have hbyte : (UInt8.ofNat symbol).toNat = symbol := by
          rw [UInt8.toNat_ofNat']
          omega
        rw [List.nil_append] at hbits
        calc w ++ b :: bits = (w ++ [b]) ++ bits := by simp
          _ = word symbol ++ (codes more ++ w') := by rw [hword, hbits]
          _ = codes (UInt8.ofNat symbol :: more) ++ w' := by simp [codes, hbyte]
    · rw [hstep]
      rcases ih (w ++ [b]) out hnext with herror | ⟨more, w', hw', hbits, hrun⟩
      · exact .inl herror
      · exact .inr ⟨more, w', hw', by simpa using hbits, hrun⟩

lemma run_open {w more : List Bool} (h : prefixCode.Open (w ++ more)) (out : List UInt8) :
    more.foldlM step (reading out w) = .ok (reading out (w ++ more)) := by
  induction more generalizing w with
  | nil => simp [pure, Except.pure]
  | cons b more ih =>
    have hsplit : w ++ b :: more = (w ++ [b]) ++ more := by simp
    rw [hsplit] at h ⊢
    rw [List.foldlM_cons, step_open (h.of_prefix (List.prefix_append _ _)) out]
    exact ih h

lemma run_word {symbol : ℕ} (h : symbol < 256) (out : List UInt8) :
    (word symbol).foldlM step (reading out []) =
      .ok (reading (out ++ [UInt8.ofNat symbol]) []) := by
  have hcode := word_isCode (by omega : symbol < 257)
  have hplace := position_word (by omega : symbol < 257)
  have hlen : (word symbol).length ≤ LONGEST := by
    rw [word, length_toBits]
    exact (codes_canonical _ (mem_codes (by omega))).2.2.2.1
  rcases List.eq_nil_or_concat (word symbol) with hnil | ⟨bits, b, hword⟩
  · rw [hnil] at hcode
    exact absurd hcode (PrefixCode.open_nil _ (List.prefix_refl _))
  · rw [List.concat_eq_append] at hword
    rw [hword] at hcode hplace hlen ⊢
    have hinit : prefixCode.Open ([] ++ bits) := hcode.init_open
    have heos : symbol ≠ EOS := by unfold EOS; omega
    have hlast : step (reading out bits) b = .ok (reading (out ++ [UInt8.ofNat symbol]) []) := by
      rw [step_code hcode hlen hplace out, if_neg heos, reading_nil]
    rw [List.foldlM_append, run_open hinit out, List.nil_append]
    simp only [bind, Except.bind, List.foldlM_cons, hlast, List.foldlM_nil, pure, Except.pure]

lemma run_codes (more out : List UInt8) :
    (codes more).foldlM step (reading out []) = .ok (reading (out ++ more) []) := by
  induction more generalizing out with
  | nil => simp [codes, pure, Except.pure]
  | cons byte more ih =>
    have hbyte : UInt8.ofNat byte.toNat = byte := UInt8.ofNat_toNat
    have hsplit : codes (byte :: more) = word byte.toNat ++ codes more := rfl
    rw [hsplit, List.foldlM_append, run_word byte.toNat_lt out, hbyte]
    change (codes more).foldlM step (reading (out ++ [byte]) []) = _
    rw [ih, List.append_assoc]
    rfl

lemma ones_open {padding : List Bool} (hlen : padding.length ≤ 7) (hones : ∀ b ∈ padding, b = true) :
    prefixCode.Open padding := by
  intro w hw hcode
  have hshort : w.length ≤ 7 := le_trans hw.length_le hlen
  have hw1 : w = List.replicate w.length true :=
    List.eq_replicate_iff.2 ⟨rfl, fun b hb => hones b (hw.subset hb)⟩
  have hpast := ones_past w.length hshort
  rw [← hw1] at hpast
  have hlt := hcode.2
  omega

/-- **The decoder takes the coded strings and no others.** -/
theorem decode_ok_iff (input out : List UInt8) : decode input = .ok out ↔ Coded input out := by
  unfold decode
  rw [← reading_nil]
  constructor
  · intro h
    rcases run_cases (input.flatMap byteBits) [] [] PrefixCode.open_nil with herror |
      ⟨more, w, -, hbits, hrun⟩
    · rw [herror] at h
      cases h
    · rw [hrun] at h
      simp only at h
      split at h
      · cases h
      · next hpadding =>
        cases h
        rw [not_or] at hpadding
        refine ⟨w, hbits, Nat.not_lt.1 hpadding.1, ?_⟩
        have hall : w.all id = true := by
          have := hpadding.2
          simpa [reading] using this
        simpa using hall
  · rintro ⟨padding, hbits, hlen, hones⟩
    have hopen : prefixCode.Open ([] ++ padding) := ones_open hlen hones
    have hall : padding.all id = true := by simpa using hones
    have hrun : (codes out ++ padding).foldlM step (reading [] []) = .ok (reading out padding) := by
      rw [List.foldlM_append, run_codes]
      exact run_open hopen out
    rw [hbits, hrun]
    simp only [reading, hall]
    rw [if_neg (by simp; omega)]

/-- **It never runs out of its tables or past its integers.** -/
theorem decode_safe (input : List UInt8) : Safe (decode input) := by
  unfold decode
  rw [← reading_nil]
  rcases run_cases (input.flatMap byteBits) [] [] PrefixCode.open_nil with herror |
    ⟨more, w, -, -, hrun⟩
  · rw [herror]
    exact safe_refused _
  · rw [hrun]
    simp only
    split
    · exact safe_refused _
    · exact safe_ok _

/-! ### Within the tables -/

/-- The next bit is read within the tables: the code is not below the codes of its length, its
length is one there is, and if it ends there its symbol is one of the table's. -/
structure InRange (s : Reading) (bit : Bool) : Prop where
  first_le : s.first ≤ s.code ||| bit.toNat
  length_le : s.length + 1 ≤ LONGEST
  index_lt : (s.code ||| bit.toNat) - s.first < COUNT.getD (s.length + 1) 0 →
    s.index + ((s.code ||| bit.toNat) - s.first) < 257

lemma count_getD (length : ℕ) : COUNT.getD length 0 = prefixCode.count length := by
  simp only [prefixCode]

/-- A code's place is in the table of symbols. -/
lemma position_lt {bits : List Bool} (h : prefixCode.IsCode bits) (hlen : bits.length ≤ LONGEST) :
    prefixCode.position bits < 257 := by
  obtain ⟨symbol, -, hplace, -⟩ := symbol_of_isCode h hlen
  have hsize : SYMBOLS.length = 257 := by rw [symbols_eq]; decide +kernel
  have hlt := (List.getElem?_eq_some_iff.1 hplace).1
  omega

/-- **The bit after bits in which no code has ended** is read within the tables. -/
theorem inRange_reading (out : List UInt8) {bits : List Bool} (h : prefixCode.Open bits)
    (b : Bool) : InRange (reading out bits) b := by
  have hle := h.le
  have hlt : bits.length < LONGEST := h.length_lt
  have hlen : (bits ++ [b]).length = bits.length + 1 := by simp
  have hfirst : PrefixCode.first prefixCode.count (bits.length + 1) ≤ bitsValue (bits ++ [b]) := by
    calc PrefixCode.first prefixCode.count (bits.length + 1)
        = 2 * (PrefixCode.first prefixCode.count bits.length + prefixCode.count bits.length) := rfl
      _ ≤ 2 * bitsValue bits := Nat.mul_le_mul_left 2 hle
      _ ≤ bitsValue (bits ++ [b]) := by rw [bitsValue_snoc]; omega
  refine ⟨?_, hlt, fun hcount => ?_⟩
  · simpa only [reading, code_or] using hfirst
  · simp only [reading, code_or, count_getD] at hcount ⊢
    have hcode : prefixCode.IsCode (bits ++ [b]) := by
      unfold PrefixCode.IsCode
      rw [hlen]
      exact ⟨hfirst, by omega⟩
    have hplace := position_lt hcode (by omega)
    rwa [PrefixCode.position, hlen] at hplace

/-- **The decoder takes the coded strings and no others**, and every bit it reads, of any input,
is read within the tables. -/
theorem decode_canonical (input : List UInt8) :
    (∀ out, decode input = .ok out ↔ Coded input out) ∧
    decode input ≠ .error .panic ∧
    ∀ read bit rest s, input.flatMap byteBits = read ++ bit :: rest →
      read.foldlM step (.fresh []) = .ok s → InRange s bit := by
  refine ⟨decode_ok_iff input, decode_safe input, fun read bit rest s _ hread => ?_⟩
  rw [← reading_nil] at hread
  rcases run_cases read [] [] PrefixCode.open_nil with herror | ⟨more, w, hopen, -, hrun⟩
  · rw [herror] at hread
    cases hread
  · rw [hrun] at hread
    cases hread
    exact inRange_reading _ hopen bit

end Huffman

end Masqr.Transport
