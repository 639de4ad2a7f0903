import Wireform.Text.Digit
import Wireform.Text.Quoted

/-!
# Integer numerals

Reading and writing integers as text. A numeral may have blanks around it, a sign, single
underscores between its digits, and decimal digits of any script. A decimal numeral has at most
`Numeral.digitLimit` digits, leading zeros included, whether it is read or written; numerals in a
base that is a power of two have no limit.

- `Numeral.read base text` is the integer that a text denotes
- `Numeral.write value` is the decimal text of an integer
-/

namespace Wireform.Numeral

open Wireform.Text

/-- The greatest number of digits of a decimal numeral. -/
def digitLimit : Nat := 4300

/-- Why a text is not read as an integer, or an integer not written as text. -/
inductive Fault where
  /-- The text is no numeral in the base. -/
  | malformed (base : Nat) (text : String)
  /-- The text has more decimal digits than are read. -/
  | tooManyDigits (count : Nat)
  /-- The integer has more decimal digits than are written. -/
  | tooLong
  deriving DecidableEq, Repr

/-- The wording of a fault. Of a malformed text, at most 200 characters of its quoted form show. -/
def Fault.message : Fault → String
  | .malformed base text =>
      "invalid literal for int() with base " ++ toString base ++ ": "
        ++ String.ofList ((quoteChars text.toList).take 200)
  | .tooManyDigits count =>
      "Exceeds the limit (" ++ toString digitLimit
        ++ " digits) for integer string conversion: value has " ++ toString count
        ++ " digits; use sys.set_int_max_str_digits() to increase the limit"
  | .tooLong =>
      "Exceeds the limit (" ++ toString digitLimit
        ++ " digits) for integer string conversion; use sys.set_int_max_str_digits()"
        ++ " to increase the limit"

/-- A character as a numeral sees it: decimal digits of any script count as ASCII digits, blanks
outside ASCII as spaces, and any other character outside ASCII is no part of a numeral. -/
def plainChar (c : Char) : Char :=
  if c.toNat < 127 then c
  else if isBlank c then ' '
  else match decimalValue? c with
    | some value => Nat.digitChar value
    | none => '?'

/-- Blanks that may stand around a numeral. -/
def isOuterBlank (c : Char) : Bool :=
  c == ' ' || (9 ≤ c.toNat && c.toNat ≤ 13)

/-- The value of a digit in bases up to sixteen. -/
def digitValue (c : Char) : Nat :=
  if '0' ≤ c ∧ c ≤ '9' then c.toNat - '0'.toNat
  else if 'a' ≤ c ∧ c ≤ 'f' then c.toNat - 'a'.toNat + 10
  else if 'A' ≤ c ∧ c ≤ 'F' then c.toNat - 'A'.toNat + 10
  else 16

/-- Whether `c` is a digit of the base. -/
def isBaseDigit (base : Nat) (c : Char) : Bool :=
  digitValue c < base

/-- Whether a run of digits and underscores has each underscore between two digits. -/
def wellSpaced : List Char → Bool
  | [] => true
  | '_' :: _ => false
  | _ :: '_' :: [] => false
  | _ :: '_' :: rest => wellSpaced rest
  | _ :: rest => wellSpaced rest

/-- The value of a row of digits, the most significant first. -/
def digitsValue (base : Nat) (digits : List Char) : Nat :=
  digits.foldl (fun value c => value * base + digitValue c) 0

/-- The sign of a numeral and what follows it. -/
def splitSign : List Char → Bool × List Char
  | '+' :: rest => (false, rest)
  | '-' :: rest => (true, rest)
  | rest => (false, rest)

/-- The letters that mark a base after a leading zero. -/
def baseLetters : Nat → List Char
  | 2 => ['b', 'B']
  | 8 => ['o', 'O']
  | 16 => ['x', 'X']
  | _ => []

/-- What follows the mark of a base, where there is one; an underscore may follow the mark. -/
def dropBaseMark (base : Nat) : List Char → List Char
  | '0' :: letter :: rest =>
      if (baseLetters base).contains letter then
        match rest with
        | '_' :: tail => tail
        | tail => tail
      else '0' :: letter :: rest
  | rest => rest

/-- The integer that a text denotes in a base. -/
def read (base : Nat) (text : String) : Except Fault Int :=
  let (negative, unsigned) := splitSign ((text.toList.map plainChar).dropWhile isOuterBlank)
  let body := dropBaseMark base unsigned
  let inRun := fun c => isBaseDigit base c || c == '_'
  let run := body.takeWhile inRun
  let digits := run.filter (· != '_')
  if !wellSpaced run then .error (.malformed base text)
  else if base == 10 && digits.length > digitLimit then .error (.tooManyDigits digits.length)
  else if digits.isEmpty || !((body.dropWhile inRun).all isOuterBlank) then
    .error (.malformed base text)
  else if negative then .ok (-(digitsValue base digits : Int))
  else .ok (digitsValue base digits)

/-- The decimal text of an integer. -/
def write (value : Int) : Except Fault String :=
  if Nat.pow 10 digitLimit ≤ value.natAbs then .error .tooLong else .ok (toString value)

end Wireform.Numeral
