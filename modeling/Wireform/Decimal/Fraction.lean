import Wireform.Decimal.Binary64
import Wireform.Text.Numeral

/-!
# Decimal fractions as text

Reading and writing doubles. Fractions are written with the fewest digits that read back, with a
point in place as long as it stands no more than four places before and sixteen places after the
first digit, and with an exponent of at least two digits otherwise.

- `Fraction.read?` reads a text
- `Fraction.write` writes a double
-/

namespace Wireform.Fraction

/-- The exponent after its mark: a sign and at least one digit. -/
def readExponent? (text : List Char) : Option Int :=
  let (negative, digits) := Numeral.splitSign text
  if digits.isEmpty || !digits.all (Numeral.isBaseDigit 10) then none
  else
    let value : Int := Numeral.digitsValue 10 digits
    some (if negative then -value else value)

/-- A decimal fraction without its sign: digits around a point, and perhaps an exponent. -/
def readUnsigned? (text : List Char) : Option Float :=
  let isDigit := Numeral.isBaseDigit 10
  let whole := text.takeWhile isDigit
  let afterWhole := text.dropWhile isDigit
  let (part, rest) := match afterWhole with
    | '.' :: tail => (tail.takeWhile isDigit, tail.dropWhile isDigit)
    | tail => ([], tail)
  let exponent := match rest with
    | [] => some 0
    | mark :: tail => if mark == 'e' || mark == 'E' then readExponent? tail else none
  if whole.isEmpty && part.isEmpty then none
  else exponent.map fun e =>
    Float.ofBits (Binary64.ofDecimal (Numeral.digitsValue 10 (whole ++ part)) (e - part.length))

/-- The double that a text denotes. -/
def read? (text : String) : Option Float :=
  let start := (text.toList.map Numeral.plainChar).dropWhile Numeral.isOuterBlank
  let trimmed := (start.reverse.dropWhile Numeral.isOuterBlank).reverse
  let (negative, unsigned) := Numeral.splitSign trimmed
  let magnitude := match String.ofList (unsigned.map Char.toLower) with
    | "inf" | "infinity" => some (Float.ofBits 0x7ff0000000000000)
    | "nan" => some (Float.ofBits 0x7ff8000000000000)
    | _ => readUnsigned? unsigned
  magnitude.map fun value => if negative then -value else value

/-- An exponent with its sign and at least two digits. -/
def exponentText (exponent : Int) : String :=
  let digits := String.ofList ((Nat.toDigits 10 exponent.natAbs).leftpad 2 '0')
  (if exponent < 0 then "e-" else "e+") ++ digits

/-- Digits of which the first `point` stand before the point. -/
def placePoint (digits : List Char) (point : Int) : String :=
  if point ≤ 0 then "0." ++ String.ofList (List.replicate (-point).toNat '0' ++ digits)
  else
    let count := point.toNat
    if digits.length ≤ count then
      String.ofList (digits ++ List.replicate (count - digits.length) '0') ++ ".0"
    else String.ofList (digits.take count) ++ "." ++ String.ofList (digits.drop count)

/-- Digits with an exponent. -/
def scientific (digits : List Char) (point : Int) : String :=
  let mantissa := match digits with
    | first :: rest =>
        if rest.isEmpty then String.ofList [first] else String.ofList (first :: '.' :: rest)
    | [] => ""
  mantissa ++ exponentText (point - 1)

/-- The text of a double. -/
def write (value : Float) : String :=
  let bits := value.toBits
  let sign := if bits.toNat / Binary64.twoTo 63 = 1 then "-" else ""
  let magnitude := bits.toNat % Binary64.twoTo 63
  if magnitude > 0x7ff0000000000000 then "nan"
  else if magnitude = 0x7ff0000000000000 then sign ++ "inf"
  else if magnitude = 0 then sign ++ "0.0"
  else
    let (digits, exponent) := Binary64.shortest (Binary64.decode magnitude.toUInt64)
    let point := digits.length + exponent
    sign ++ (if -4 < point ∧ point ≤ 16 then placePoint digits point else scientific digits point)

/-- The integer that a double is equal to, if it is one. -/
def toInt? (value : Float) : Option Int :=
  let magnitude := value.toBits.toNat % Binary64.twoTo 63
  if magnitude ≥ 0x7ff0000000000000 then none
  else
    let number := Binary64.decode magnitude.toUInt64
    let (num, den) := Binary64.scale number.significand number.exponent
    if num % den = 0 then
      let whole : Int := (num / den : Nat)
      some (if value.toBits.toNat / Binary64.twoTo 63 = 1 then -whole else whole)
    else none

end Wireform.Fraction
