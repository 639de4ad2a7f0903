import Wireform.Text.Digit
import Wireform.Text.Letter

/-! # Character classes that do not meet

No letter is a digit (`Wireform.Text.isDigit_eq_false_of_isLetter`), and no blank stands in a word
(`Wireform.Text.isWordChar_eq_false_of_isBlank`). The classes are unions of many ranges, so both
facts come from one pass over two ascending tables (`Wireform.InversionList.clearOf`), whose answer
is shown sound once.
-/

namespace Wireform.InversionList

/-- The ranges between paired boundaries, each with its first number and the number after its
last. -/
def ranges : InversionList → List (Nat × Nat)
  | first :: last :: rest => (first, last) :: ranges rest
  | _ => []

/-- What an inversion list contains lies in one of its ranges. -/
theorem exists_range_of_contains {boundaries : InversionList} {n : Nat}
    (paired : boundaries.length % 2 = 0) (inside : boundaries.contains n = true) :
    ∃ range ∈ boundaries.ranges, range.1 ≤ n ∧ n < range.2 := by
  fun_induction ranges boundaries with
  | case1 first last rest ih =>
      unfold contains containsFrom at inside
      split at inside
      · cases inside
      · unfold containsFrom at inside
        split at inside
        · next above below => exact ⟨(first, last), List.mem_cons_self, by omega, below⟩
        · have shorter : rest.length % 2 = 0 := by
            simp only [List.length_cons] at paired
            omega
          obtain ⟨range, listed, bounds⟩ := ih shorter inside
          exact ⟨range, List.mem_cons_of_mem _ listed, bounds⟩
  | case2 boundaries unpaired =>
      rcases boundaries with _ | ⟨first, _ | ⟨last, rest⟩⟩
      · cases inside
      · cases paired
      · exact absurd rfl (unpaired first last rest)

/-- What is left of a set's boundaries past those up to a number. -/
def skip (n : Nat) : Bool → InversionList → Bool × InversionList
  | inside, [] => (inside, [])
  | inside, boundary :: rest =>
      if boundary ≤ n then skip n (!inside) rest else (inside, boundary :: rest)

private theorem containsFrom_skip {start n : Nat} (above : start ≤ n) (inside : Bool)
    (boundaries : InversionList) :
    containsFrom (skip start inside boundaries).1 (skip start inside boundaries).2 n =
      containsFrom inside boundaries n := by
  induction boundaries generalizing inside with
  | nil => rfl
  | cons boundary rest ih =>
      unfold skip
      split
      · have notBelow : ¬n < boundary := by omega
        rw [ih, containsFrom, if_neg notBelow]
      · rfl

/-- Whether some ranges, ascending from `floor`, hold no number of a set. -/
def clearOf (floor : Nat) (inside : Bool) (boundaries : InversionList) : List (Nat × Nat) → Bool
  | [] => true
  | (first, last) :: ranges =>
      let left := skip first inside boundaries
      floor ≤ first && !left.1 && left.2.head?.all (last ≤ ·) &&
        clearOf first left.1 left.2 ranges

private theorem containsFrom_of_head? {boundaries : InversionList} {last n : Nat}
    (ahead : boundaries.head?.all (last ≤ ·) = true) (below : n < last) (inside : Bool) :
    containsFrom inside boundaries n = inside := by
  cases boundaries with
  | nil => rfl
  | cons boundary rest =>
      have later : last ≤ boundary := by simpa using ahead
      rw [containsFrom, if_pos (Nat.lt_of_lt_of_le below later)]

/-- Ranges that were found clear of a set hold none of its numbers. -/
theorem containsFrom_eq_false_of_clearOf {floor n : Nat} {inside : Bool}
    {boundaries : InversionList} {ranges : List (Nat × Nat)}
    (clear : clearOf floor inside boundaries ranges = true) {range : Nat × Nat}
    (listed : range ∈ ranges) (above : range.1 ≤ n) (below : n < range.2) :
    floor ≤ n ∧ containsFrom inside boundaries n = false := by
  induction ranges generalizing floor inside boundaries with
  | nil => cases listed
  | cons head ranges ih =>
      obtain ⟨first, last⟩ := head
      simp only [clearOf, Bool.and_eq_true, decide_eq_true_eq, Bool.not_eq_true'] at clear
      obtain ⟨⟨⟨ordered, outside⟩, ahead⟩, rest⟩ := clear
      rcases List.mem_cons.mp listed with rfl | later
      · refine ⟨by omega, ?_⟩
        rw [← containsFrom_skip above, containsFrom_of_head? ahead below, outside]
      · obtain ⟨passed, missing⟩ := ih rest later
        refine ⟨by omega, ?_⟩
        rw [← containsFrom_skip passed, missing]

/-- A number in one of some ranges is in no set of which they are clear. -/
theorem contains_eq_false_of_clearOf (boundaries : InversionList) {ranges : List (Nat × Nat)}
    {n : Nat} (inside : ∃ range ∈ ranges, range.1 ≤ n ∧ n < range.2)
    (clear : clearOf 0 false boundaries ranges = true) : boundaries.contains n = false := by
  obtain ⟨range, listed, above, below⟩ := inside
  exact (containsFrom_eq_false_of_clearOf clear listed above below).2

end Wireform.InversionList

namespace Wireform.Text

open InversionList

/-- The ranges of the decimal digits. -/
def decimalRanges : List (Nat × Nat) := decimalZeros.map fun start => (start, start + 10)

/-- A decimal digit lies in one of the runs of ten. -/
theorem exists_range_of_isDecimal {c : Char} (decimal : isDecimal c = true) :
    ∃ range ∈ decimalRanges, range.1 ≤ c.toNat ∧ c.toNat < range.2 := by
  unfold isDecimal decimalValue? at decimal
  rw [Option.isSome_map] at decimal
  obtain ⟨start, found⟩ := Option.isSome_iff_exists.mp decimal
  have bounds := List.find?_some found
  simp only [Bool.and_eq_true, decide_eq_true_eq] at bounds
  exact ⟨_, List.mem_map_of_mem (f := fun start => (start, start + 10))
    (List.mem_of_find?_eq_some found), bounds⟩

/-- A set that is clear of the runs has no decimal digits. -/
theorem isDecimal_eq_false_of_clearOf {boundaries : InversionList} {c : Char}
    (inside : boundaries.contains c.toNat = true)
    (clear : clearOf 0 false boundaries decimalRanges = true) : isDecimal c = false := by
  by_cases decimal : isDecimal c = true
  · have range := exists_range_of_isDecimal decimal
    have outside := contains_eq_false_of_clearOf boundaries range clear
    rw [inside] at outside
    cases outside
  · exact Bool.eq_false_iff.mpr decimal

/-- A letter is no digit. -/
theorem isDigit_eq_false_of_isLetter {c : Char} (letter : isLetter c = true) :
    isDigit c = false := by
  have range := exists_range_of_contains (by decide +kernel) letter
  have lone := contains_eq_false_of_clearOf loneDigitBoundaries range (by decide +kernel)
  have decimal := isDecimal_eq_false_of_clearOf letter (by decide +kernel)
  rw [isDigit, decimal, lone]
  rfl

/-- A blank does not stand in a word. -/
theorem isWordChar_eq_false_of_isBlank {c : Char} (blank : isBlank c = true) :
    isWordChar c = false := by
  have range := exists_range_of_contains (by decide +kernel) blank
  have letter : isLetter c = false :=
    contains_eq_false_of_clearOf letterBoundaries range (by decide +kernel)
  have lone := contains_eq_false_of_clearOf loneDigitBoundaries range (by decide +kernel)
  have numeric := contains_eq_false_of_clearOf numericBoundaries range (by decide +kernel)
  have decimal := isDecimal_eq_false_of_clearOf blank (by decide +kernel)
  rw [isWordChar, isDigit, letter, decimal, lone, numeric]
  rfl

end Wireform.Text
