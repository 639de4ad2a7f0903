/-!
# Digits and white space

A property of Unicode is a union of a few hundred ranges, so the character classes of this library
are inversion lists. An inversion list gives a set of natural numbers by the points at which
membership changes: the set starts outside, and each boundary of the ascending list turns membership
over.

A decimal digit belongs to a run of ten characters, zero to nine, of some script, so its value is
its distance from the zero of its run. Other digits, such as superscripts and circled numbers, are
digits without being usable in a positional numeral.

The white space of Unicode is made of the ASCII blanks and the separators U+001C to U+001F, the line
and paragraph separators, and the spaces of every width.

- `InversionList.contains boundaries n` decides membership
- `decimalValue? c` is the value of a decimal digit
- `isDigit c` also admits the digits that stand outside positional numerals
- `strip` removes white space from both ends of a text
-/

namespace Wireform

/-! ### Inversion lists -/

/-- The ascending boundaries of a set of natural numbers. -/
abbrev InversionList := List Nat

namespace InversionList

/-- Membership after `inside` has been decided by the boundaries already passed. -/
def containsFrom (inside : Bool) : InversionList → Nat → Bool
  | [], _ => inside
  | boundary :: rest, n => if n < boundary then inside else containsFrom (!inside) rest n

/-- Whether `n` lies in the set with the given boundaries. -/
def contains (boundaries : InversionList) (n : Nat) : Bool :=
  containsFrom false boundaries n

@[simp] private theorem contains_nil (n : Nat) : contains [] n = false := rfl

end InversionList

namespace Text

/-! ### Digits -/

/-- The character zero of every script that has decimal digits. -/
def decimalZeros : List Nat := [
    0x30, 0x660, 0x6f0, 0x7c0, 0x966, 0x9e6, 0xa66, 0xae6, 0xb66, 0xbe6, 0xc66, 0xce6, 0xd66, 0xde6,
    0xe50, 0xed0, 0xf20, 0x1040, 0x1090, 0x17e0, 0x1810, 0x1946, 0x19d0, 0x1a80, 0x1a90, 0x1b50,
    0x1bb0, 0x1c40, 0x1c50, 0xa620, 0xa8d0, 0xa900, 0xa9d0, 0xa9f0, 0xaa50, 0xabf0, 0xff10, 0x104a0,
    0x10d30, 0x11066, 0x110f0, 0x11136, 0x111d0, 0x112f0, 0x11450, 0x114d0, 0x11650, 0x116c0,
    0x11730, 0x118e0, 0x11950, 0x11c50, 0x11d50, 0x11da0, 0x16a60, 0x16ac0, 0x16b50, 0x1d7ce,
    0x1d7d8, 0x1d7e2, 0x1d7ec, 0x1d7f6, 0x1e140, 0x1e2f0, 0x1e950, 0x1fbf0]

/-- The value of a decimal digit of any script. -/
def decimalValue? (c : Char) : Option Nat :=
  (decimalZeros.find? fun start => start ≤ c.toNat && c.toNat < start + 10).map (c.toNat - ·)

/-- Whether `c` is a decimal digit of some script. -/
def isDecimal (c : Char) : Bool :=
  (decimalValue? c).isSome

/-- The boundaries of the digits that are not decimal digits. -/
def loneDigitBoundaries : InversionList := [
    0xb2, 0xb4, 0xb9, 0xba, 0x1369, 0x1372, 0x19da, 0x19db, 0x2070, 0x2071, 0x2074, 0x207a, 0x2080,
    0x208a, 0x2460, 0x2469, 0x2474, 0x247d, 0x2488, 0x2491, 0x24ea, 0x24eb, 0x24f5, 0x24fe, 0x24ff,
    0x2500, 0x2776, 0x277f, 0x2780, 0x2789, 0x278a, 0x2793, 0x10a40, 0x10a44, 0x10e60, 0x10e69,
    0x11052, 0x1105b, 0x1f100, 0x1f10b]

/-- Whether `c` is a digit: a decimal digit, or a superscript, subscript or circled one. -/
def isDigit (c : Char) : Bool :=
  isDecimal c || loneDigitBoundaries.contains c.toNat

/-- A decimal digit's value is below ten. -/
theorem decimalValue?_lt {c : Char} {value : Nat} (h : decimalValue? c = some value) :
    value < 10 := by
  obtain ⟨start, hstart, rfl⟩ := Option.map_eq_some_iff.1 h
  have hrange := List.find?_some hstart
  simp only [Bool.and_eq_true, decide_eq_true_eq] at hrange
  omega

/-! ### White space -/

/-- The boundaries of the white space characters. -/
def blankBoundaries : InversionList := [
    0x9, 0xe, 0x1c, 0x21, 0x85, 0x86, 0xa0, 0xa1, 0x1680, 0x1681, 0x2000, 0x200b, 0x2028, 0x202a,
    0x202f, 0x2030, 0x205f, 0x2060, 0x3000, 0x3001]

/-- Whether `c` is white space. -/
def isBlank (c : Char) : Bool :=
  blankBoundaries.contains c.toNat

/-- The text without the blanks at either end. -/
def strip (text : List Char) : List Char :=
  ((text.dropWhile isBlank).reverse.dropWhile isBlank).reverse

@[simp] private theorem strip_nil : strip [] = [] := rfl

end Text

end Wireform
