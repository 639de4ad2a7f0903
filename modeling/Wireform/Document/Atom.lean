import Wireform.Decimal.Fraction
import Wireform.Document.Calendar
import Wireform.Document.Tag

/-!
# Values of scalars

The value that a scalar has under its tag, and its written forms: `Atom.render` is the text of the
value alone, `Atom.describe` its form inside a collection.

Bytes are written in base 64. Characters outside its alphabet are passed over, and decoding stops at
the padding that completes a group. A text that ends inside a group is refused.

- `Atom.ofScalar` is the value of a scalar
- `decodeBase64?` are the bytes that a text denotes
- `Atom.sameKey` tells whether two values are the same key of a mapping
-/

namespace Wireform.Document

/-! ### Base 64 -/

/-- The value of a character of the alphabet. -/
def base64Value? (c : Char) : Option Nat :=
  if 'A' ≤ c ∧ c ≤ 'Z' then some (c.toNat - 'A'.toNat)
  else if 'a' ≤ c ∧ c ≤ 'z' then some (c.toNat - 'a'.toNat + 26)
  else if '0' ≤ c ∧ c ≤ '9' then some (c.toNat - '0'.toNat + 52)
  else if c = '+' then some 62
  else if c = '/' then some 63
  else none

/-- Decodes on, with `filled` characters of the current group read, `left` the bits that they leave
for the next byte, and `pads` the padding met since the last of them. -/
def decodeBase64From (filled left pads : Nat) : List Char → Option (List UInt8)
  | [] => if filled = 0 then some [] else none
  | c :: rest =>
      if c = '=' then
        if filled ≥ 2 then
          if filled + (pads + 1) ≥ 4 then some []
          else decodeBase64From filled left (pads + 1) rest
        else decodeBase64From filled left pads rest
      else match base64Value? c with
        | none => decodeBase64From filled left pads rest
        | some value =>
            match filled with
            | 0 => decodeBase64From 1 value 0 rest
            | 1 => (decodeBase64From 2 (value % 16) 0 rest).map
                ((left * 4 + value / 16).toUInt8 :: ·)
            | 2 => (decodeBase64From 3 (value % 4) 0 rest).map
                ((left * 16 + value / 4).toUInt8 :: ·)
            | _ => (decodeBase64From 0 0 0 rest).map ((left * 64 + value).toUInt8 :: ·)

/-- The bytes that a text denotes. -/
def decodeBase64? (text : List Char) : Option (List UInt8) :=
  decodeBase64From 0 0 0 text

/-! ### Scalars -/


/-- The value of a scalar. -/
inductive Atom where
  | null
  | truth (value : Bool)
  | integer (value : Int)
  | fraction (value : Float)
  | text (value : String)
  | bytes (value : List UInt8)
  | date (value : Date)
  | moment (value : Moment)

/-! ### Reading scalars -/

/-- A text without underscores, and without its sign, with whether that was a minus. -/
def numberParts (scalar : String) : Except Fault (Bool × List Char) :=
  match scalar.toList.filter (· != '_') with
  | [] => .error .emptyNumber
  | '-' :: rest => .ok (true, rest)
  | '+' :: rest => .ok (false, rest)
  | rest => .ok (false, rest)

/-- The integer that a text denotes in a base. -/
def readInteger (base : Nat) (text : List Char) : Except Fault Int :=
  (Numeral.read base (String.ofList text)).mapError .numeral

/-- The value of digits in base sixty, the most significant first. -/
def sexagesimal (digits : List Int) : Int :=
  digits.foldl (fun value digit => value * 60 + digit) 0

/-- The integer of a scalar: binary, octal, hexadecimal, in base sixty or decimal. -/
def integerOf (scalar : String) : Except Fault Int := do
  let (negative, text) ← numberParts scalar
  let value ← match text with
    | [] => throw .emptyNumber
    | ['0'] => pure 0
    | '0' :: 'b' :: digits => readInteger 2 digits
    | '0' :: 'x' :: digits => readInteger 16 digits
    | '0' :: digits => readInteger 8 ('0' :: digits)
    | digits =>
        if digits.contains ':' then do
          pure (sexagesimal (← (splitAtChar ':' digits).mapM (readInteger 10)))
        else readInteger 10 digits
  return if negative then -value else value

/-- The fraction that a text denotes. -/
def readFraction (text : List Char) : Except Fault Float :=
  match Fraction.read? (String.ofList text) with
  | some value => .ok value
  | none => .error (.fraction (String.ofList text))

/-- The double nearest to a weight, if there is one: beyond the last double there is none. -/
def weightOf (weight : Nat) : Except Fault Float :=
  let bits := Binary64.ofRatio weight 1
  if bits = 0x7ff0000000000000 then .error .codePointRange else .ok (Float.ofBits bits)

/-- The sum of parts in base sixty, the least first, each by its weight. -/
def weighted (sum : Float) (weight : Nat) : List Float → Except Fault Float
  | [] => .ok sum
  | part :: rest => do weighted (sum + part * (← weightOf weight)) (weight * 60) rest

/-- The fraction of a scalar. In base sixty the last part has the least weight. -/
def fractionOf (scalar : String) : Except Fault Float := do
  let (negative, text) ← numberParts (String.ofList (scalar.toList.map Char.toLower))
  let value ←
    if text == ".inf".toList then pure (Float.ofBits 0x7ff0000000000000)
    else if text == ".nan".toList then pure (Float.ofBits 0x7ff8000000000000)
    else if text.contains ':' then do
      let parts ← (splitAtChar ':' text).mapM readFraction
      weighted (Float.ofBits 0) 1 parts.reverse
    else readFraction text
  return if negative then -value else value

/-- The truth value of a scalar. -/
def truthOf (scalar : String) : Except Fault Bool :=
  let word := String.ofList (scalar.toList.map Char.toLower)
  if ["yes", "true", "on"].contains word then .ok true
  else if ["no", "false", "off"].contains word then .ok false
  else .error (.truthValue word)

/-- The offset of a zone in minutes. -/
def offsetOf (zone : List Char) : Option Int :=
  match zone with
  | [] => none
  | 'Z' :: _ => some 0
  | sign :: rest =>
      let hours := Numeral.digitsValue 10 (rest.takeWhile isDigitChar)
      let minutes := Numeral.digitsValue 10 ((rest.dropWhile isDigitChar).drop 1)
      let offset : Int := (hours * 60 + minutes : Nat)
      some (if sign == '-' then -offset else offset)

/-- The date or moment of a scalar. -/
def stampOf (scalar : String) : Except Fault Atom := do
  match stamp? (dropFinalBreak scalar.toList) with
  | none => throw .dateForm
  | some stamp =>
      let number := Numeral.digitsValue 10
      let date : Date := ⟨number stamp.year, number stamp.month, number stamp.day⟩
      match stamp.time with
      | none =>
          date.check.mapError .calendar
          return .date date
      | some (hour, minute, second, fraction, zone) =>
          let micro := (fraction ++ List.replicate 6 '0').take 6
          let moment : Moment := {
            date, hour := number hour, minute := number minute, second := number second
            microsecond := number micro, offset := offsetOf zone }
          moment.check.mapError .calendar
          return .moment moment

/-- The bytes of a scalar. -/
def bytesOf (scalar : String) : Except Fault (List UInt8) :=
  if scalar.toList.all (·.toNat < 128) then
    match decodeBase64? scalar.toList with
    | some bytes => .ok bytes
    | none => .error .malformed
  else .error .malformed

/-- The value of a scalar under a tag for scalars. -/
def Atom.ofScalar (tag : Tag) (scalar : String) : Except Fault Atom :=
  match tag with
  | .null => .ok .null
  | .truth => return .truth (← truthOf scalar)
  | .integer => return .integer (← integerOf scalar)
  | .fraction => return .fraction (← fractionOf scalar)
  | .binary => return .bytes (← bytesOf scalar)
  | .timestamp => stampOf scalar
  | .text => .ok (.text scalar)
  | _ => .error .malformed

/-- One byte inside quotes of the given kind. -/
def escapeByte (mark : Char) (byte : UInt8) : List Char :=
  let c := Char.ofNat byte.toNat
  if c = mark ∨ c = '\\' then ['\\', c]
  else if c = '\t' then ['\\', 't']
  else if c = '\n' then ['\\', 'n']
  else if c = '\r' then ['\\', 'r']
  else if 32 ≤ byte.toNat ∧ byte.toNat < 127 then [c]
  else '\\' :: 'x' :: Text.hexDigits 2 byte.toNat

/-- The quoted form of some bytes. -/
def quoteBytes (bytes : List UInt8) : String :=
  let mark := Text.quoteMark (bytes.map fun byte => Char.ofNat byte.toNat)
  String.ofList ('b' :: mark :: (bytes.flatMap (escapeByte mark) ++ [mark]))

/-! ### Written forms and keys -/

namespace Atom

/-- The form of a value inside a collection. -/
def describe : Atom → Except Fault String
  | null => .ok "None"
  | truth value => .ok (if value then "True" else "False")
  | integer value => (Numeral.write value).mapError .numeral
  | fraction value => .ok (Fraction.write value)
  | text value => .ok (Text.quote value)
  | bytes value => .ok (quoteBytes value)
  | date value => .ok value.describe
  | moment value => .ok value.describe

/-- The text of a value alone. -/
def render : Atom → Except Fault String
  | text value => .ok value
  | date value => .ok value.render
  | moment value => .ok value.render
  | atom => atom.describe

/-- The number that a value is equal to, as an integer if it is whole. -/
def number? : Atom → Option (Int ⊕ UInt64)
  | truth value => some (.inl (if value then 1 else 0))
  | integer value => some (.inl value)
  | fraction value => some (match Fraction.toInt? value with
      | some whole => .inl whole
      | none => .inr (if value.isNaN then 0x7ff8000000000000 else value.toBits))
  | _ => none

/-- Whether two values are the same key. Equal numbers are the same key, whatever their kind. -/
def sameKey (first second : Atom) : Bool :=
  match first, second with
  | null, null => true
  | text a, text b => a == b
  | bytes a, bytes b => a == b
  | date a, date b => a == b
  | moment a, moment b => a.sameInstant b
  | a, b => match a.number?, b.number? with
    | some x, some y => x == y
    | _, _ => false

end Atom

end Wireform.Document
