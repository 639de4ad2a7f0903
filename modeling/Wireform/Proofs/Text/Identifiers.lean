import Wireform.Proofs.Text.Classes
import Wireform.Text.Identifier

/-! # Words and identifiers

A word is made of letters and of characters that stand for numbers. An identifier takes nearly all
of them. It takes no superscripts, fractions, circled numbers and the like, and there are eighteen
letters that it does not take, most of them forms of Arabic letters that stand alone
(`Wireform.Text.isIdentifierContinue_iff`). Some more letters stand in identifiers but do not begin
them (`Wireform.Text.isIdentifierStart_iff`).

The classes are unions of many ranges. Membership in a set changes at boundaries alone, so what
holds of some sets at zero and at all their boundaries holds everywhere
(`Wireform.InversionList.exists_boundary`).
-/

namespace Wireform.InversionList

private theorem containsFrom_not (inside : Bool) (boundaries : InversionList) (n : Nat) :
    containsFrom (!inside) boundaries n = !containsFrom inside boundaries n := by
  induction boundaries generalizing inside with
  | nil => rfl
  | cons boundary rest ih =>
      rw [containsFrom, containsFrom, ih]
      split <;> rfl

/-- A number in one of some ranges is in a set if they are clear of what is outside the set. -/
theorem contains_of_clearOf (boundaries : InversionList) {ranges : List (Nat × Nat)} {n : Nat}
    (inside : ∃ range ∈ ranges, range.1 ≤ n ∧ n < range.2)
    (clear : clearOf 0 true boundaries ranges = true) : boundaries.contains n = true := by
  obtain ⟨range, listed, above, below⟩ := inside
  have outside := (containsFrom_eq_false_of_clearOf clear listed above below).2
  rwa [← Bool.not_false, containsFrom_not, Bool.not_eq_false'] at outside

private theorem containsFrom_congr {boundaries : InversionList} {point n : Nat} (below : point ≤ n)
    (last : ∀ boundary ∈ boundaries, boundary ≤ n → boundary ≤ point) (inside : Bool) :
    containsFrom inside boundaries n = containsFrom inside boundaries point := by
  induction boundaries generalizing inside with
  | nil => rfl
  | cons boundary rest ih =>
      obtain ⟨first, others⟩ := List.forall_mem_cons.mp last
      rw [containsFrom, containsFrom, ih others]
      by_cases above : n < boundary
      · rw [if_pos above, if_pos (by omega)]
      · rw [if_neg above, if_neg (by have := first (by omega); omega)]

/-- The last of some points up to a number, or zero. -/
theorem exists_last_point (points : List Nat) (n : Nat) :
    ∃ point ∈ 0 :: points, point ≤ n ∧ ∀ other ∈ points, other ≤ n → other ≤ point := by
  induction points with
  | nil => exact ⟨0, List.mem_cons_self, Nat.zero_le n, List.forall_mem_nil _⟩
  | cons first points ih =>
      obtain ⟨point, listed, below, last⟩ := ih
      by_cases better : point ≤ first ∧ first ≤ n
      · refine ⟨first, by simp, better.2, List.forall_mem_cons.mpr ⟨fun _ => Nat.le_refl first, ?_⟩⟩
        exact fun other member low => Nat.le_trans (last other member low) better.1
      · refine ⟨point, ?_, below, List.forall_mem_cons.mpr ⟨fun low => by omega, last⟩⟩
        rcases List.mem_cons.mp listed with rfl | later
        · exact List.mem_cons_self
        · exact List.mem_cons_of_mem _ (List.mem_cons_of_mem _ later)

/-- A number belongs to the same of some sets as zero or one of their boundaries. -/
theorem exists_boundary (sets : List InversionList) (n : Nat) :
    ∃ point ∈ 0 :: sets.flatten, ∀ set ∈ sets, set.contains n = set.contains point := by
  obtain ⟨point, listed, below, last⟩ := exists_last_point sets.flatten n
  refine ⟨point, listed, fun set member => containsFrom_congr below ?_ false⟩
  exact fun boundary inside => last boundary (List.mem_flatten.mpr ⟨set, member, inside⟩)

/-- What is in one set and not in another is in a third if this is so at all boundaries. -/
theorem contains_of_boundaries {set without covering : InversionList}
    (covered : ∀ point ∈ 0 :: [set, without, covering].flatten, set.contains point = true →
      without.contains point = false → covering.contains point = true)
    {n : Nat} (inside : set.contains n = true) (outside : without.contains n = false) :
    covering.contains n = true := by
  obtain ⟨point, listed, same⟩ := exists_boundary [set, without, covering] n
  simp only [List.forall_mem_cons, List.not_mem_nil, false_implies, implies_true, and_true] at same
  obtain ⟨whole, removed, rest⟩ := same
  rw [rest]
  exact covered point listed (whole ▸ inside) (removed ▸ outside)

end Wireform.InversionList

namespace Wireform.Text

open InversionList

/-! ### Characters that no identifier takes -/

/-- The boundaries of the characters of words that stand for numbers and may not stand in an
identifier. -/
def strayNumberBoundaries : InversionList := [
    0xb2, 0xb4, 0xb9, 0xba, 0xbc, 0xbf, 0x9f4, 0x9fa, 0xb72, 0xb78, 0xbf0, 0xbf3, 0xc78, 0xc7f,
    0xd58, 0xd5f, 0xd70, 0xd79, 0xf2a, 0xf34, 0x1372, 0x137d, 0x17f0, 0x17fa, 0x2070, 0x2071,
    0x2074, 0x207a, 0x2080, 0x208a, 0x2150, 0x2160, 0x2189, 0x218a, 0x2460, 0x249c, 0x24ea, 0x2500,
    0x2776, 0x2794, 0x2cfd, 0x2cfe, 0x3192, 0x3196, 0x3220, 0x322a, 0x3248, 0x3250, 0x3251, 0x3260,
    0x3280, 0x328a, 0x32b1, 0x32c0, 0xa830, 0xa836, 0x10107, 0x10134, 0x10175, 0x10179, 0x1018a,
    0x1018c, 0x102e1, 0x102fc, 0x10320, 0x10324, 0x10858, 0x10860, 0x10879, 0x10880, 0x108a7,
    0x108b0, 0x108fb, 0x10900, 0x10916, 0x1091c, 0x109bc, 0x109be, 0x109c0, 0x109d0, 0x109d2,
    0x10a00, 0x10a40, 0x10a49, 0x10a7d, 0x10a7f, 0x10a9d, 0x10aa0, 0x10aeb, 0x10af0, 0x10b58,
    0x10b60, 0x10b78, 0x10b80, 0x10ba9, 0x10bb0, 0x10cfa, 0x10d00, 0x10e60, 0x10e7f, 0x10f1d,
    0x10f27, 0x10f51, 0x10f55, 0x10fc5, 0x10fcc, 0x11052, 0x11066, 0x111e1, 0x111f5, 0x1173a,
    0x1173c, 0x118ea, 0x118f3, 0x11c5a, 0x11c6d, 0x11fc0, 0x11fd5, 0x16b5b, 0x16b62, 0x16e80,
    0x16e97, 0x1d2e0, 0x1d2f4, 0x1d360, 0x1d379, 0x1e8c7, 0x1e8d0, 0x1ec71, 0x1ecac, 0x1ecad,
    0x1ecb0, 0x1ecb1, 0x1ecb5, 0x1ed01, 0x1ed2e, 0x1ed2f, 0x1ed3e, 0x1f100, 0x1f10d]

/-- The boundaries of the letters that may not stand in an identifier. -/
def strayLetterBoundaries : InversionList := [
    0x37a, 0x37b, 0x2e2f, 0x2e30, 0xfc5e, 0xfc64, 0xfdfa, 0xfdfc, 0xfe70, 0xfe71, 0xfe72, 0xfe73,
    0xfe74, 0xfe75, 0xfe76, 0xfe77, 0xfe78, 0xfe79, 0xfe7a, 0xfe7b, 0xfe7c, 0xfe7d, 0xfe7e, 0xfe7f]

/-- Whether a word may have a character and an identifier may not. -/
def isStray (c : Char) : Bool :=
  strayNumberBoundaries.contains c.toNat || strayLetterBoundaries.contains c.toNat

/-- Whether `c` is a letter with which no identifier begins. -/
def isBarredStart (c : Char) : Bool := letterOnlyBoundaries.contains c.toNat

/-- The boundaries of the letters and of the digits without a place value that identifiers take, but
not as their first character. -/
def innerBoundaries : InversionList := [
    0xe33, 0xe34, 0xeb3, 0xeb4, 0x1369, 0x1372, 0x19da, 0x19db, 0xff9e, 0xffa0]

private theorem isIdentifierContinue_of_ranges {ranges : List (Nat × Nat)} {c : Char}
    (inside : ∃ range ∈ ranges, range.1 ≤ c.toNat ∧ c.toNat < range.2)
    (taken : clearOf 0 true extraContinueBoundaries ranges = true) :
    isIdentifierContinue c = true := by
  rw [isIdentifierContinue, contains_of_clearOf extraContinueBoundaries inside taken, Bool.or_true]

private theorem isIdentifierContinue_of_inner {c : Char}
    (inner : innerBoundaries.contains c.toNat = true) :
    isIdentifierContinue c = true :=
  isIdentifierContinue_of_ranges (exists_range_of_contains (by decide +kernel) inner)
    (by decide +kernel)

private theorem isIdentifierContinue_of_isLetter {c : Char} (letter : isLetter c = true)
    (plain : strayLetterBoundaries.contains c.toNat = false) : isIdentifierContinue c = true := by
  cases barred : letterOnlyBoundaries.contains c.toNat with
  | true =>
      have inner : innerBoundaries.contains c.toNat = true :=
        contains_of_boundaries (by decide +kernel) barred plain
      exact isIdentifierContinue_of_inner inner
  | false =>
      rw [isIdentifierContinue, isIdentifierStart, letter, barred]
      rfl

private theorem isIdentifierContinue_of_isDecimal {c : Char} (decimal : isDecimal c = true) :
    isIdentifierContinue c = true :=
  isIdentifierContinue_of_ranges (exists_range_of_isDecimal decimal) (by decide +kernel)

private theorem isIdentifierContinue_of_digit {c : Char}
    (digit : loneDigitBoundaries.contains c.toNat = true)
    (plain : strayNumberBoundaries.contains c.toNat = false) : isIdentifierContinue c = true := by
  have inner : innerBoundaries.contains c.toNat = true :=
    contains_of_boundaries (by decide +kernel) digit plain
  exact isIdentifierContinue_of_inner inner

private theorem isIdentifierContinue_of_numeric {c : Char}
    (numeric : numericBoundaries.contains c.toNat = true)
    (plain : strayNumberBoundaries.contains c.toNat = false) : isIdentifierContinue c = true := by
  have start : extraStartBoundaries.contains c.toNat = true :=
    contains_of_boundaries (by decide +kernel) numeric plain
  rw [isIdentifierContinue, isIdentifierStart, start, Bool.or_true]
  rfl

private theorem isIdentifierContinue_eq_false_of_isStray {c : Char} (stray : isStray c = true) :
    isIdentifierContinue c = false := by
  rcases Bool.or_eq_true_iff.mp stray with number | letter
  · have range := exists_range_of_contains (by decide +kernel) number
    have letter : isLetter c = false :=
      contains_eq_false_of_clearOf letterBoundaries range (by decide +kernel)
    have start := contains_eq_false_of_clearOf extraStartBoundaries range (by decide +kernel)
    have inner := contains_eq_false_of_clearOf extraContinueBoundaries range (by decide +kernel)
    rw [isIdentifierContinue, isIdentifierStart, letter, start, inner]
    rfl
  · have range := exists_range_of_contains (by decide +kernel) letter
    have barred := contains_of_clearOf letterOnlyBoundaries range (by decide +kernel)
    have start := contains_eq_false_of_clearOf extraStartBoundaries range (by decide +kernel)
    have inner := contains_eq_false_of_clearOf extraContinueBoundaries range (by decide +kernel)
    rw [isIdentifierContinue, isIdentifierStart, barred, start, inner, Bool.not_true,
      Bool.and_false]
    rfl

/-- **Identifiers take what words are made of, without the stray characters.** -/
theorem isIdentifierContinue_iff {c : Char} (word : isWordChar c = true) :
    isIdentifierContinue c = true ↔ isStray c = false := by
  constructor
  · intro taken
    refine Bool.eq_false_iff.mpr fun stray => ?_
    rw [isIdentifierContinue_eq_false_of_isStray stray] at taken
    cases taken
  · intro plain
    obtain ⟨number, letter⟩ := Bool.or_eq_false_iff.mp plain
    rw [isWordChar, isDigit, Bool.or_eq_true, Bool.or_eq_true, Bool.or_eq_true] at word
    rcases word with (isLetter | decimal | digit) | numeric
    · exact isIdentifierContinue_of_isLetter isLetter letter
    · exact isIdentifierContinue_of_isDecimal decimal
    · exact isIdentifierContinue_of_digit digit number
    · exact isIdentifierContinue_of_numeric numeric number

/-- **Letters begin identifiers, but for the inner ones.** -/
theorem isIdentifierStart_iff {c : Char} (letter : isLetter c = true) :
    isIdentifierStart c = true ↔ isBarredStart c = false := by
  rw [isIdentifierStart, letter, Bool.true_and, isBarredStart]
  cases inner : letterOnlyBoundaries.contains c.toNat with
  | false => simp
  | true =>
      have range := exists_range_of_contains (by decide +kernel) inner
      have start := contains_eq_false_of_clearOf extraStartBoundaries range (by decide +kernel)
      rw [start]
      simp

end Wireform.Text
