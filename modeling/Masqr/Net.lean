import Mathlib

/-!
Internet addresses: their order, and how they are read and written.
-/

namespace Masqr

abbrev Ipv4Addr := BitVec 32
abbrev Ipv6Addr := BitVec 128

inductive IpAddr
  | v4 (address : Ipv4Addr)
  | v6 (address : Ipv6Addr)
  deriving DecidableEq

namespace IpAddr

def isIpv4 : IpAddr → Bool
  | v4 _ => true
  | v6 _ => false

/-- The place of an address in the order: the older family comes first. -/
def place : IpAddr → ℕ
  | v4 a => a.toNat
  | v6 a => 2 ^ 32 + a.toNat

lemma place_injective : Function.Injective place := by
  intro a b h
  cases a with
  | v4 a =>
    cases b with
    | v4 b => rw [BitVec.eq_of_toNat_eq h]
    | v6 b => have := a.isLt; simp only [place] at h; omega
  | v6 a =>
    cases b with
    | v4 b => have := b.isLt; simp only [place] at h; omega
    | v6 b => rw [BitVec.eq_of_toNat_eq (Nat.add_left_cancel h)]

instance : Ord IpAddr := ⟨compareOn place⟩

instance : Std.TransOrd IpAddr := inferInstanceAs (Std.TransCmp (compareOn place))

instance : Std.LawfulEqOrd IpAddr where
  eq_of_compare h := place_injective (Std.LawfulEqOrd.eq_of_compare h)

end IpAddr

/-! ### Reading -/

/-- A value taken off the front of a text, and the rest of the text. -/
abbrev Parser (α : Type) := List Char → Option (α × List Char)

namespace Parser

def toDigit (radix : ℕ) (c : Char) : Option ℕ :=
  let n : ℕ :=
    if '0' ≤ c ∧ c ≤ '9' then c.toNat - '0'.toNat
    else if 'a' ≤ c ∧ c ≤ 'z' then c.toNat - 'a'.toNat + 10
    else if 'A' ≤ c ∧ c ≤ 'Z' then c.toNat - 'A'.toNat + 10
    else radix
  if n < radix then some n else none

def readGivenChar (wanted : Char) : Parser Unit
  | c :: text => if c = wanted then some ((), text) else none
  | [] => none

def readSeparator {α : Type} (sep : Char) (index : ℕ) (inner : Parser α) : Parser α := fun text =>
  if 0 < index then (readGivenChar sep text).bind fun r => inner r.2 else inner text

/-- A number of at most so many digits, below a bound. -/
def readNumber (radix maxDigits : ℕ) (allowZeroPrefix : Bool) (bound : ℕ) : Parser ℕ := fun text =>
  let digits := text.takeWhile fun c => (toDigit radix c).isSome
  let result := (digits.filterMap (toDigit radix)).foldl (fun n d => n * radix + d) 0
  if digits.length = 0 ∨ maxDigits < digits.length then none
  else if !allowZeroPrefix ∧ text.head? = some '0' ∧ 1 < digits.length then none
  else if result < bound then some (result, text.drop digits.length)
  else none

def readIpv4Addr : Parser Ipv4Addr := fun text => do
  let octet i := readSeparator '.' i (readNumber 10 3 false 256)
  let (a, text) ← octet 0 text
  let (b, text) ← octet 1 text
  let (c, text) ← octet 2 text
  let (d, text) ← octet 3 text
  return (BitVec.ofNat 32 (((a * 256 + b) * 256 + c) * 256 + d), text)

/-- The groups of an address up to a limit, and whether they ended with an address of the
older family. -/
def readGroups : (left i : ℕ) → List Char → List ℕ × Bool × List Char
  | 0, _, text => ([], false, text)
  | left + 1, i, text =>
    match if 0 < left then readSeparator ':' i readIpv4Addr text else none with
    | some (a, text) => ([a.toNat / 65536, a.toNat % 65536], true, text)
    | none =>
      match readSeparator ':' i (readNumber 16 4 true 65536) text with
      | some (group, text) =>
        let (groups, v4, text) := readGroups left (i + 1) text
        (group :: groups, v4, text)
      | none => ([], false, text)

def fromSegments (segments : List ℕ) : Ipv6Addr :=
  BitVec.ofNat 128 (segments.foldl (fun n s => n * 65536 + s) 0)

def readIpv6Addr : Parser Ipv6Addr := fun text =>
  let (head, v4, text) := readGroups 8 0 text
  if head.length = 8 then some (fromSegments head, text)
  else if v4 then none
  else do
    let (_, text) ← readGivenChar ':' text
    let (_, text) ← readGivenChar ':' text
    let (tail, _, text) := readGroups (8 - (head.length + 1)) 0 text
    return (fromSegments (head ++ List.replicate (8 - head.length - tail.length) 0 ++ tail), text)

/-- The whole of a text as an address. -/
def parse (text : String) : Option IpAddr :=
  let read := ((readIpv4Addr text.toList).map fun r => (IpAddr.v4 r.1, r.2)).orElse fun _ =>
    (readIpv6Addr text.toList).map fun r => (IpAddr.v6 r.1, r.2)
  match read with
  | some (address, []) => some address
  | _ => none

/-- The whole of a text as a number of one byte. -/
def parseU8 (text : String) : Option UInt8 :=
  let digits := match text.toList with
    | '+' :: rest => rest
    | chars => chars
  if digits = [] ∨ digits.any (fun c => (toDigit 10 c).isNone) then none
  else
    let n := (digits.filterMap (toDigit 10)).foldl (fun n d => n * 10 + d) 0
    if n < 256 then some (UInt8.ofNat n) else none

end Parser

/-! ### Writing -/

def Ipv4Addr.octets (a : Ipv4Addr) : List ℕ :=
  [a.toNat / 16777216, a.toNat / 65536 % 256, a.toNat / 256 % 256, a.toNat % 256]

def Ipv4Addr.text (a : Ipv4Addr) : String := ".".intercalate ((octets a).map toString)

def Ipv6Addr.segments (a : Ipv6Addr) : List ℕ :=
  (List.range 8).map fun i => a.toNat / 65536 ^ (7 - i) % 65536

def Ipv6Addr.toIpv4Mapped (a : Ipv6Addr) : Option Ipv4Addr :=
  if a.toNat / 2 ^ 32 = 0xffff then some (BitVec.ofNat 32 a.toNat) else none

/-- Where the first of the longest runs of zeros starts, and how long it is. -/
def Ipv6Addr.zeroes (segments : List ℕ) : ℕ × ℕ :=
  let (longest, _, _) := segments.foldl
    (fun ((longest, current, i) : (ℕ × ℕ) × (ℕ × ℕ) × ℕ) s =>
      if s = 0 then
        let current := if current.2 = 0 then (i, 1) else (current.1, current.2 + 1)
        (if longest.2 < current.2 then current else longest, current, i + 1)
      else (longest, (0, 0), i + 1))
    ((0, 0), (0, 0), 0)
  longest

def Ipv6Addr.subslice (segments : List ℕ) : String :=
  ":".intercalate (segments.map fun s => String.ofList (Nat.toDigits 16 s))

def Ipv6Addr.text (a : Ipv6Addr) : String :=
  match toIpv4Mapped a with
  | some v4 => "::ffff:" ++ Ipv4Addr.text v4
  | none =>
    let segments := segments a
    let (start, len) := zeroes segments
    if 1 < len then subslice (segments.take start) ++ "::" ++ subslice (segments.drop (start + len))
    else subslice segments

def IpAddr.text : IpAddr → String
  | v4 a => Ipv4Addr.text a
  | v6 a => Ipv6Addr.text a

end Masqr
