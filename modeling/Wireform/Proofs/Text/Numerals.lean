import Mathlib.Algebra.Group.Nat.Defs
import Mathlib.Data.List.TakeWhile
import Wireform.Proofs.Text.Classes
import Wireform.Text.Numeral

/-! # Numerals made of decimal digits

A row of decimal digits, of whatever scripts, is a numeral if it is not too long
(`Wireform.Numeral.read_of_isDecimal`), and no other row of digits is one
(`Wireform.Numeral.isDecimal_of_read`). What a numeral denotes (`Wireform.Numeral.lt_of_read`) is
short enough to be written (`Wireform.Numeral.write_of_lt`).
-/

namespace Wireform.Numeral

open Wireform.Text

/-! ### Digits -/

/-- The ASCII digits. -/
def IsPlainDigit (c : Char) : Prop := ∃ value < 10, c = Nat.digitChar value

/-- A decimal digit counts as the ASCII digit of its value. -/
theorem isPlainDigit_plainChar {c : Char} (decimal : isDecimal c = true) :
    IsPlainDigit (plainChar c) := by
  obtain ⟨value, found⟩ := Option.isSome_iff_exists.mp decimal
  refine ⟨value, decimalValue?_lt found, ?_⟩
  unfold plainChar
  split
  · next ascii =>
      obtain ⟨start, first, rfl⟩ := Option.map_eq_some_iff.mp found
      have bounds := List.find?_some first
      simp only [Bool.and_eq_true, decide_eq_true_eq] at bounds
      have zeros : ∀ start ∈ decimalZeros, start < 127 → start = 0x30 := by decide
      obtain rfl := zeros start (List.mem_of_find?_eq_some first) (by omega)
      apply Char.toNat_inj.mp
      rw [Nat.toNat_digitChar_of_lt_ten (by omega)]
      omega
  · split
    · next blank =>
        rw [isDecimal_eq_false_of_clearOf blank (by decide +kernel)] at decimal
        cases decimal
    · rw [found]

/-- A character that is no sign, no blank around a numeral and no underscore in one. -/
structure IsSolid (c : Char) : Prop where
  noUnderscore : c ≠ '_'
  noPlus : c ≠ '+'
  noMinus : c ≠ '-'
  noBlank : isOuterBlank c = false

private theorem IsPlainDigit.digitValue_lt {c : Char} (digit : IsPlainDigit c) :
    digitValue c < 10 := by
  have all : ∀ value < 10, digitValue (Nat.digitChar value) < 10 := by decide
  obtain ⟨value, small, rfl⟩ := digit
  exact all value small

private theorem IsPlainDigit.isSolid {c : Char} (digit : IsPlainDigit c) : IsSolid c := by
  have all : ∀ value < 10, Nat.digitChar value ≠ '_' ∧ Nat.digitChar value ≠ '+' ∧
      Nat.digitChar value ≠ '-' ∧ isOuterBlank (Nat.digitChar value) = false := by
    decide
  obtain ⟨value, small, rfl⟩ := digit
  obtain ⟨noUnderscore, noPlus, noMinus, noBlank⟩ := all value small
  exact ⟨noUnderscore, noPlus, noMinus, noBlank⟩

/-- A digit that is not decimal is no part of a numeral. -/
theorem plainChar_of_not_isDecimal {c : Char} (digit : isDigit c = true)
    (lone : isDecimal c = false) : plainChar c = '?' := by
  have inside : loneDigitBoundaries.contains c.toNat = true := by
    rwa [isDigit, lone, Bool.false_or] at digit
  have above : ¬ c.toNat < 127 := by
    obtain ⟨range, listed, first, -⟩ :=
      InversionList.exists_range_of_contains (by decide +kernel) inside
    have starts : ∀ range ∈ loneDigitBoundaries.ranges, 127 ≤ range.1 := by decide +kernel
    exact Nat.not_lt.mpr (Nat.le_trans (starts range listed) first)
  have noBlank : ¬ isBlank c = true := by
    intro blank
    have word := isWordChar_of_isDigit digit
    rw [isWordChar_eq_false_of_isBlank blank] at word
    cases word
  have noValue : decimalValue? c = none := by
    rwa [isDecimal, Option.isSome_eq_false_iff, Option.isNone_iff_eq_none] at lone
  rw [plainChar, if_neg above, if_neg noBlank, noValue]

private theorem isSolid_plainChar {c : Char} (digit : isDigit c = true) : IsSolid
    (plainChar c) := by
  by_cases decimal : isDecimal c = true
  · exact (isPlainDigit_plainChar decimal).isSolid
  · rw [plainChar_of_not_isDecimal digit (Bool.eq_false_iff.mpr decimal)]
    exact ⟨by decide, by decide, by decide, rfl⟩

/-! ### Rows of digits -/

variable {digits : List Char}

private theorem wellSpaced_of_solid (solid : ∀ c ∈ digits, IsSolid c) :
    wellSpaced digits = true := by
  fun_induction wellSpaced digits with
  | case1 => rfl
  | case2 rest => exact absurd rfl (solid '_' List.mem_cons_self).noUnderscore
  | case3 c => exact absurd rfl (solid '_' (by simp)).noUnderscore
  | case4 c rest => exact absurd rfl (solid '_' (by simp)).noUnderscore
  | case5 c rest _ _ _ ih =>
      exact ih fun later member => solid later (List.mem_cons_of_mem c member)

private theorem splitSign_of_solid (solid : ∀ c ∈ digits, IsSolid c) :
    splitSign digits = (false, digits) := by
  unfold splitSign
  split
  · exact absurd rfl (solid '+' List.mem_cons_self).noPlus
  · exact absurd rfl (solid '-' List.mem_cons_self).noMinus
  · rfl

private theorem dropWhile_isOuterBlank (solid : ∀ c ∈ digits, IsSolid c) :
    digits.dropWhile isOuterBlank = digits := by
  cases digits with
  | nil => rfl
  | cons c digits =>
      rw [List.dropWhile_cons_of_neg]
      rw [(solid c List.mem_cons_self).noBlank]
      exact Bool.false_ne_true

private theorem dropBaseMark_ten (text : List Char) : dropBaseMark 10 text = text := by
  unfold dropBaseMark
  split
  · exact if_neg (by simp [baseLetters])
  · rfl

private theorem digitsValue_lt (small : ∀ c ∈ digits, digitValue c < 10) :
    digitsValue 10 digits < 10 ^ digits.length := by
  have bound (start : Nat) :
      digits.foldl (fun value c => value * 10 + digitValue c) start <
        (start + 1) * 10 ^ digits.length := by
    induction digits generalizing start with
    | nil => simp
    | cons c digits ih =>
        have digit := small c List.mem_cons_self
        have later := ih (fun later member => small later (List.mem_cons_of_mem c member))
          (start * 10 + digitValue c)
        calc
          _ < (start * 10 + digitValue c + 1) * 10 ^ digits.length := later
          _ ≤ ((start + 1) * 10) * 10 ^ digits.length := Nat.mul_le_mul_right _ (by omega)
          _ = (start + 1) * 10 ^ (c :: digits).length := by
            rw [List.length_cons, Nat.pow_succ, Nat.mul_assoc, Nat.mul_comm 10]
  simpa [digitsValue] using bound 0

/-- Behind a run of solid characters there are no blanks. -/
theorem all_isOuterBlank_dropWhile_iff (solid : ∀ c ∈ digits, IsSolid c) {inRun : Char → Bool} :
    (digits.dropWhile inRun).all isOuterBlank = true ↔ ∀ c ∈ digits, inRun c = true := by
  rw [← List.dropWhile_eq_nil_iff, List.all_eq_true]
  constructor
  · intro blank
    refine List.eq_nil_iff_forall_not_mem.mpr fun c member => ?_
    have noBlank := (solid c ((List.dropWhile_sublist inRun).subset member)).noBlank
    rw [blank c member] at noBlank
    cases noBlank
  · intro empty c member
    rw [empty] at member
    cases member

/-- A text of solid characters is a numeral if it is a row of one or more digits of base ten that is
not too long. -/
theorem read_of_solid {text : String} (solid : ∀ c ∈ text.toList.map plainChar, IsSolid c)
    {value : Int} :
    read 10 text = .ok value ↔
      text.toList ≠ [] ∧ (∀ c ∈ text.toList.map plainChar, isBaseDigit 10 c = true) ∧
        text.length ≤ digitLimit ∧ value = digitsValue 10 (text.toList.map plainChar) := by
  have occupied : text.toList ≠ [] ↔ text.toList.map plainChar ≠ [] := by simp
  have count : text.length = (text.toList.map plainChar).length := (List.length_map _).symm
  rw [occupied, count, read]
  generalize text.toList.map plainChar = digits at solid
  let inRun : Char → Bool := fun c => isBaseDigit 10 c || c == '_'
  have agrees : ∀ c ∈ digits, inRun c = isBaseDigit 10 c := by
    intro c member
    simp only [inRun, beq_false_of_ne (solid c member).noUnderscore, Bool.or_false]
  have inside : ∀ c ∈ digits.takeWhile inRun, IsSolid c :=
    fun c member => solid c (List.takeWhile_subset inRun member)
  have kept : (digits.takeWhile inRun).filter (· != '_') = digits.takeWhile inRun :=
    List.filter_eq_self.mpr fun c member => bne_iff_ne.mpr (inside c member).noUnderscore
  have behind : (digits.dropWhile inRun).all isOuterBlank = true ↔
      ∀ c ∈ digits, isBaseDigit 10 c = true :=
    (all_isOuterBlank_dropWhile_iff solid).trans
      (forall₂_congr fun c member => by rw [agrees c member])
  simp only [dropWhile_isOuterBlank solid, splitSign_of_solid solid, dropBaseMark_ten]
  have wellFormed := wellSpaced_of_solid inside
  have whole (inBase : ∀ c ∈ digits, isBaseDigit 10 c = true) : digits.takeWhile inRun = digits :=
    List.takeWhile_eq_self_iff.mpr fun c member => (agrees c member).trans (inBase c member)
  simp only [inRun] at kept behind wellFormed whole
  rw [kept, wellFormed]
  constructor
  · intro found
    split at found
    · cases found
    · split at found
      · cases found
      · next count =>
          split at found
          · cases found
          · next ends =>
              rw [Bool.or_eq_true, not_or, Bool.not_eq_true', Bool.not_eq_false] at ends
              have inBase := behind.mp ends.2
              rw [whole inBase] at found count ends
              refine ⟨by simpa using ends.1, inBase, by simpa using count, ?_⟩
              exact (Except.ok.inj found).symm
  · rintro ⟨occupied, inBase, short, rfl⟩
    rw [behind.mpr inBase, whole inBase]
    simp [occupied, short]

/-- **A row of decimal digits is a numeral** if it is not too long. -/
theorem read_of_isDecimal {text : String} (occupied : text.toList ≠ [])
    (decimal : ∀ c ∈ text.toList, isDecimal c = true) (short : text.length ≤ digitLimit) :
    ∃ value : Nat, read 10 text = .ok value ∧ value < 10 ^ digitLimit := by
  have plain : ∀ c ∈ text.toList.map plainChar, IsPlainDigit c := by
    intro c member
    obtain ⟨original, present, rfl⟩ := List.mem_map.mp member
    exact isPlainDigit_plainChar (decimal original present)
  have inBase : ∀ c ∈ text.toList.map plainChar, isBaseDigit 10 c = true :=
    fun c member => decide_eq_true (plain c member).digitValue_lt
  have small := digitsValue_lt fun c member => (plain c member).digitValue_lt
  rw [List.length_map] at small
  refine ⟨_, (read_of_solid fun c member => (plain c member).isSolid).mpr
    ⟨occupied, inBase, short, rfl⟩, ?_⟩
  exact Nat.lt_of_lt_of_le small (Nat.pow_le_pow_right (by decide) short)

/-- **A row of digits that is a numeral** is one of decimal digits and not too long. -/
theorem isDecimal_of_read {text : String} (digits : ∀ c ∈ text.toList, isDigit c = true)
    {value : Int} (found : read 10 text = .ok value) :
    (∀ c ∈ text.toList, isDecimal c = true) ∧ text.length ≤ digitLimit := by
  have solid : ∀ c ∈ text.toList.map plainChar, IsSolid c := by
    intro c member
    obtain ⟨original, present, rfl⟩ := List.mem_map.mp member
    exact isSolid_plainChar (digits original present)
  obtain ⟨-, inBase, short, -⟩ := (read_of_solid solid).mp found
  refine ⟨fun c present => ?_, short⟩
  by_contra lone
  have mark := plainChar_of_not_isDecimal (digits c present) (Bool.eq_false_iff.mpr lone)
  have digit := inBase _ (List.mem_map_of_mem present)
  rw [mark] at digit
  cases digit

/-- A numeral has few enough digits. -/
theorem lt_of_read {text : String} {value : Int} (found : read 10 text = .ok value) :
    value.natAbs < 10 ^ digitLimit := by
  let inRun : Char → Bool := fun c => isBaseDigit 10 c || c == '_'
  have bounded (body : List Char)
      (count : ((body.takeWhile inRun).filter (· != '_')).length ≤ digitLimit) :
      digitsValue 10 ((body.takeWhile inRun).filter (· != '_')) < 10 ^ digitLimit := by
    refine Nat.lt_of_lt_of_le (digitsValue_lt fun c member => ?_)
      (Nat.pow_le_pow_right (by decide) count)
    obtain ⟨present, other⟩ := List.mem_filter.mp member
    have digit : (isBaseDigit 10 c || c == '_') = true :=
      List.mem_takeWhile_imp (p := inRun) present
    rw [beq_false_of_ne (bne_iff_ne.mp other), Bool.or_false] at digit
    exact of_decide_eq_true digit
  unfold read at found
  simp only at found
  split at found
  · cases found
  · split at found
    · cases found
    · next count =>
        have short := bounded _ (by simpa using count)
        split at found
        · cases found
        · split at found
          · obtain rfl := Except.ok.inj found
            rw [Int.natAbs_neg, Int.natAbs_natCast]
            exact short
          · obtain rfl := Except.ok.inj found
            rw [Int.natAbs_natCast]
            exact short

/-- A number of few enough digits can be written. -/
theorem write_of_lt {value : Int} (short : value.natAbs < 10 ^ digitLimit) :
    write value = .ok (toString value) := by
  rw [write, Nat.pow_eq, if_neg (Nat.not_le.mpr short)]

private theorem write_of_le {value : Int} (long : 10 ^ digitLimit ≤ value.natAbs) :
    write value = .error .tooLong := by
  rw [write, Nat.pow_eq, if_pos long]

/-- A number that can be written has few enough digits. -/
theorem lt_of_write {value : Int} {text : String} (written : write value = .ok text) :
    value.natAbs < 10 ^ digitLimit := by
  refine Nat.lt_of_not_le fun long => ?_
  rw [write_of_le long] at written
  cases written

end Wireform.Numeral
