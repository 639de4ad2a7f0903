import Wireform.Text.Printable

/-!
# Numerals and texts as they are shown

Lower-case hexadecimal numerals are padded with zeros to a least width; a minus sign counts towards
the width.

The quoted form of a text is how messages and generated code show it. The quotes are single, unless
the text holds a single quote and no double quote. The quote in use and the backslash are escaped
with a backslash, tabs and line breaks have their letters, and every other character that is not
printable is written by its code point.

A raw text comes from outside, as the words of a command line do. It is a row of characters in which
single bytes can stand that belong to no character. Such a byte is shown by the code point U+DC80 to
U+DCFF that is kept for it.

- `hexText` is the hexadecimal numeral of an integer
- `quote` is the quoted form of a text, and `escape` the form of one character inside given quotes
- `Raw.text?` is a raw text as a text, `Raw.shown` and `Raw.quote` are the ways to show it
-/

namespace Wireform.Text

/-! ### Hexadecimal numerals -/

/-- The hexadecimal numeral of `n`, padded with zeros to at least `width` digits. -/
def hexDigits (width n : Nat) : List Char :=
  (Nat.toDigits 16 n).leftpad width '0'

/-- The hexadecimal numeral of an integer, padded with zeros to at least `width` characters. -/
def hexText (width : Nat) (value : Int) : String :=
  match value with
  | .ofNat n => String.ofList (hexDigits width n)
  | .negSucc n => String.ofList ('-' :: hexDigits (width - 1) (n + 1))

/-! ### Quoted texts -/

/-- The quote that encloses a text. -/
def quoteMark (text : List Char) : Char :=
  if text.contains '\'' && !text.contains '"' then '"' else '\''

/-- A character by its code point, in two, four or eight hexadecimal digits. -/
def codePointEscape (c : Char) : List Char :=
  if c.toNat < 0x100 then '\\' :: 'x' :: hexDigits 2 c.toNat
  else if c.toNat < 0x10000 then '\\' :: 'u' :: hexDigits 4 c.toNat
  else '\\' :: 'U' :: hexDigits 8 c.toNat

/-- One character inside quotes of the given kind. -/
def escape (mark c : Char) : List Char :=
  if c = mark ∨ c = '\\' then ['\\', c]
  else if c = '\t' then ['\\', 't']
  else if c = '\n' then ['\\', 'n']
  else if c = '\r' then ['\\', 'r']
  else if isPrintable c then [c]
  else codePointEscape c

/-- The characters of the quoted form of a text. -/
def quoteChars (text : List Char) : List Char :=
  let mark := quoteMark text
  mark :: (text.flatMap (escape mark) ++ [mark])

/-- The quoted form of a text. -/
def quote (text : String) : String :=
  String.ofList (quoteChars text.toList)

/-! ### Raw texts -/

/-- A character of a raw text. A byte that belongs to no character is one of the upper half, so its
lower seven bits tell it. -/
inductive RawChar where
  | char (c : Char)
  | byte (low : Fin 128)
  deriving DecidableEq, Repr

namespace RawChar

/-- A character of a raw text as a character. -/
def char? : RawChar → Option Char
  | char c => some c
  | byte _ => none

/-- The form of a character of a raw text inside quotes, or by itself if `mark` is nothing. -/
def display (mark : Option Char) : RawChar → List Char
  | char c => match mark with
    | some mark => escape mark c
    | none => [c]
  | byte low => '\\' :: 'u' :: hexDigits 4 (0xDC80 + low)

end RawChar

/-- A text from outside. -/
abbrev Raw := List RawChar

namespace Raw

/-- A text as a raw text. -/
def ofString (text : String) : Raw := text.toList.map .char

/-- A raw text as a text, if all of it is made of characters. -/
def text? (raw : Raw) : Option String := (raw.mapM RawChar.char?).map String.ofList

/-- A raw text as it is written where nothing is refused. -/
def shown (raw : Raw) : String := String.ofList (raw.flatMap (RawChar.display none))

/-- The quoted form of a raw text. -/
def quote (raw : Raw) : String :=
  let mark := quoteMark (raw.filterMap RawChar.char?)
  String.ofList (mark :: (raw.flatMap (RawChar.display (some mark)) ++ [mark]))

/-- Raw texts with a text between them. -/
def intercalate (separator : String) (parts : List Raw) : Raw :=
  List.intercalate (ofString separator) parts

/-- A text is read back from its raw form. -/
@[simp] theorem text?_ofString (text : String) : (ofString text).text? = some text := by
  have each (cs : List Char) : (cs.map RawChar.char).mapM RawChar.char? = some cs := by
    induction cs with
    | nil => rfl
    | cons c cs ih => simp [List.mapM_cons, RawChar.char?, ih]
  simp [ofString, text?, each]

end Raw

end Wireform.Text
