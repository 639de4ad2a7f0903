import Wireform.Text.Numeral

/-!
# Faults of a document

A document that breaks the rules of its format is malformed, and no more is told about it. The other
faults come from scalars that are well formed as text, but have no value of the kind that their tag
or their form asks for.
-/

namespace Wireform.Document

/-- Why a date or a time of day does not exist. -/
inductive CalendarFault where
  | year (year : Nat)
  | month
  | day
  | hour
  | minute
  | second
  | offset (shown : String)
  deriving DecidableEq, Repr

/-- The wording of a fault. -/
def CalendarFault.message : CalendarFault → String
  | year y => "year " ++ toString y ++ " is out of range"
  | month => "month must be in 1..12"
  | day => "day is out of range for month"
  | hour => "hour must be in 0..23"
  | minute => "minute must be in 0..59"
  | second => "second must be in 0..59"
  | offset shown =>
      "offset must be a timedelta strictly between -timedelta(hours=24) and "
        ++ "timedelta(hours=24), not " ++ shown ++ "."

/-- Why a document is not read. -/
inductive Fault where
  /-- The text breaks the rules of the format. -/
  | malformed
  /-- An escape names a code point beyond the last. -/
  | codePoint
  /-- A number is beyond the range in which it is used: that of an escape, or a weight in base
  sixty. -/
  | codePointRange
  /-- A scalar is no integer, or an integer is too long to show. -/
  | numeral (fault : Numeral.Fault)
  /-- A scalar is no decimal fraction. -/
  | fraction (text : String)
  /-- A scalar that has to be a number has no characters for it. -/
  | emptyNumber
  /-- A scalar that has to be a truth value is none. -/
  | truthValue (text : String)
  /-- A scalar that has to be a date has no such form. -/
  | dateForm
  /-- A mapping stands where the form of a date is asked for. -/
  | dateOfMapping
  /-- A date or a time of day does not exist. -/
  | calendar (fault : CalendarFault)
  deriving DecidableEq, Repr

/-- The wording of a fault. -/
def Fault.message : Fault → String
  | malformed => "Invalid YAML"
  | codePoint => "chr() arg not in range(0x110000)"
  | codePointRange => "Python int too large to convert to C int"
  | numeral fault => fault.message
  | fraction text => "could not convert string to float: " ++ Text.quote text
  | emptyNumber => "string index out of range"
  | truthValue text => Text.quote text
  | dateForm => "'NoneType' object has no attribute 'groupdict'"
  | dateOfMapping => "expected string or bytes-like object, got 'list'"
  | calendar fault => fault.message

end Wireform.Document
