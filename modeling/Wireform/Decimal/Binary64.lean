/-!
# Binary fractions of 64 bits

A finite double is a natural number of at most 53 bits times a power of two. Reading a decimal
fraction rounds it to the nearest such number, a tie going to the even one; the decimal form of a
double is the shortest that is read back as the same double, and of several such the nearest.
Everything is computed on natural numbers, so no step rounds but the one that is meant to.

- `Binary64.ofRatio` rounds a positive fraction
- `Binary64.ofDecimal` reads a decimal fraction
- `Binary64.shortest` is the shortest decimal form
-/

namespace Wireform.Binary64

/-- A power of two. -/
def twoTo (exponent : Nat) : Nat := Nat.pow 2 exponent

/-- A power of ten. -/
def tenTo (exponent : Nat) : Nat := Nat.pow 10 exponent

/-- The number `significand * 2 ^ exponent`. -/
structure Finite where
  significand : Nat
  exponent : Int
  deriving DecidableEq, Repr

/-- The exponent of the smallest positive double. -/
def leastExponent : Int := -1074

/-- The fraction `n * 2 ^ e` as numerator and denominator. -/
def scale (n : Nat) (e : Int) : Nat × Nat :=
  if 0 ≤ e then (n * twoTo e.toNat, 1) else (n, twoTo (-e).toNat)

/-- The quotient rounded to the nearest natural number, a tie to the even one. -/
def roundQuotient (num den : Nat) : Nat :=
  let quotient := num / den
  let rest := 2 * (num % den)
  if rest > den || (rest == den && quotient % 2 == 1) then quotient + 1 else quotient

/-- The nearest multiple of `2 ^ e` to `num / den`, counted in that unit. -/
def roundAt (num den : Nat) (e : Int) : Nat :=
  if 0 ≤ e then roundQuotient num (den * twoTo e.toNat)
  else roundQuotient (num * twoTo (-e).toNat) den

/-- The bits of a double with the given significand and exponent, infinity if it is too large. -/
def encode (significand : Nat) (exponent : Int) : UInt64 :=
  let (s, e) := if significand = twoTo 53 then (twoTo 52, exponent + 1) else (significand, exponent)
  if s < twoTo 52 then s.toUInt64
  else if e > 971 then 0x7ff0000000000000
  else ((e + 1075).toNat * twoTo 52 + (s - twoTo 52)).toUInt64

/-- The bits of the double nearest to the positive fraction `num / den`. -/
def ofRatio (num den : Nat) : UInt64 :=
  let guess : Int := (num.log2 : Int) - den.log2 - 52
  -- The quotient lies between 2 ^ (guess + 51) and 2 ^ (guess + 53).
  let (low, bound) := (scale (twoTo 52) guess)
  let exponent := if num * bound < low * den then guess - 1 else guess
  let exponent := max exponent leastExponent
  encode (roundAt num den exponent) exponent

/-- The bits of the double nearest to `digits * 10 ^ exponent`. Exponents far out of the range of
doubles are settled without computing their powers. -/
def ofDecimal (digits : Nat) (exponent : Int) : UInt64 :=
  let length : Int := (Nat.toDigits 10 digits).length
  if digits = 0 || length + exponent < -330 then 0
  else if length + exponent > 320 then 0x7ff0000000000000
  else if 0 ≤ exponent then ofRatio (digits * tenTo exponent.toNat) 1
  else ofRatio digits (tenTo (-exponent).toNat)

/-- The finite number with the given bits, its sign apart. -/
def decode (bits : UInt64) : Finite :=
  let fraction : Nat := bits.toNat % twoTo 52
  let biased : Nat := bits.toNat / twoTo 52 % twoTo 11
  if biased = 0 then ⟨fraction, leastExponent⟩ else ⟨fraction + twoTo 52, (biased : Int) - 1075⟩

/-- Whether a number of decimal digits fits: `n * 10 ^ e` rounds to the number. The ends of the
interval that rounds to a number belong to it when the significand is even. -/
def roundsTo (number : Finite) (n : Nat) (e : Int) : Bool :=
  let low := if number.significand = twoTo 52 && number.exponent > leastExponent
    then 4 * number.significand - 1 else 4 * number.significand - 2
  let high := 4 * number.significand + 2
  let (num, den) := if 0 ≤ e then (n * tenTo e.toNat, 1) else (n, tenTo (-e).toNat)
  let (lowNum, unit) := scale low (number.exponent - 2)
  let (highNum, _) := scale high (number.exponent - 2)
  if number.significand % 2 = 0 then
    lowNum * den ≤ num * unit && num * unit ≤ highNum * den
  else lowNum * den < num * unit && num * unit < highNum * den

/-- The decimal with the unit `10 ^ e` nearest to the number among those that round to it. -/
def nearestAt (number : Finite) (e : Int) : Option Nat :=
  let (num, den) := scale number.significand number.exponent
  let (scaled, unit) :=
    if 0 ≤ e then (num, den * tenTo e.toNat) else (num * tenTo (-e).toNat, den)
  let below := scaled / unit
  let rest := 2 * (scaled % unit)
  let nearer := if rest > unit || (rest == unit && below % 2 == 1) then below + 1 else below
  let other := if nearer == below then below + 1 else below
  if roundsTo number nearer e then some nearer
  else if roundsTo number other e then some other
  else none

/-- The least `k` with the number below `10 ^ k`, from a guess that is too small by at most
`fuel`. -/
def decimalExponent (number : Finite) : Nat → Int → Int
  | 0, k => k
  | fuel + 1, k =>
      let (num, den) := scale number.significand number.exponent
      let below := if 0 ≤ k then num < den * tenTo k.toNat else num * tenTo (-k).toNat < den
      if below then k else decimalExponent number fuel (k + 1)

/-- The first unit, from `10 ^ e` down, with a decimal that rounds to the number. -/
def shortestFrom (number : Finite) : Nat → Int → Nat × Int
  | 0, e => (0, e)
  | fuel + 1, e =>
      match nearestAt number e with
      | some n => if n = 0 then shortestFrom number fuel (e - 1) else (n, e)
      | none => shortestFrom number fuel (e - 1)

/-- The digits of the shortest decimal form of a positive number, without zeros at their end, and
the power of ten that stands after the last digit. -/
def shortest (number : Finite) : List Char × Int :=
  let bits : Int := (number.significand.log2 : Int) + number.exponent
  let start := bits * 30103 / 100000 - 1
  let k := decimalExponent number 8 start
  let (n, e) := shortestFrom number 20 (k - 1)
  let digits := Nat.toDigits 10 n
  let kept := (digits.reverse.dropWhile (· == '0')).reverse
  (kept, e + (digits.length - kept.length : Nat))

end Wireform.Binary64
