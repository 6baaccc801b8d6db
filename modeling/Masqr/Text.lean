import Mathlib

/-!
Text compared and folded the way the standard library does it for ASCII.
-/

namespace Masqr

/-- The text with its ASCII capitals made small. -/
def toAsciiLowercase (s : String) : String := String.ofList (s.toList.map Char.toLower)

/-- Whether two texts are the same but for the case of ASCII letters. -/
def eqIgnoreAsciiCase (a b : String) : Bool := a.toList.map Char.toLower == b.toList.map Char.toLower

/-- Whether a character is white space. -/
def isWhitespace (c : Char) : Bool :=
  (9 ≤ c.toNat && c.toNat ≤ 13) || (0x2000 ≤ c.toNat && c.toNat ≤ 0x200a) ||
    [0x20, 0x85, 0xa0, 0x1680, 0x2028, 0x2029, 0x202f, 0x205f, 0x3000].contains c.toNat

/-- The text without the white space at its ends. -/
def trim (s : String) : String :=
  String.ofList ((s.toList.dropWhile isWhitespace).rdropWhile isWhitespace)

lemma toLower_toLower (c : Char) : c.toLower.toLower = c.toLower := by
  simp only [Char.toLower]
  split
  · next hc =>
    split
    · next hc' =>
      have ha : ('A'.val).toNat = 65 ∧ ('Z'.val).toNat = 90 ∧ ('a'.val - 'A'.val).toNat = 32 := by
        decide
      simp only [ge_iff_le, UInt32.le_iff_toNat_le, UInt32.toNat_add, ha] at hc hc'
      omega
    · rfl
  · rfl

lemma eqIgnoreAsciiCase_lowercase (a b : String) :
    eqIgnoreAsciiCase (toAsciiLowercase a) b = eqIgnoreAsciiCase a b := by
  simp only [eqIgnoreAsciiCase, toAsciiLowercase, String.toList_ofList, List.map_map]
  congr 2
  exact funext toLower_toLower

end Masqr
