/-!
# Places in a document

Reading a document moves a place over its text. A place knows the characters that are left, and the
index, line and column at which they start. Beyond the last character every character reads as
`endMark`, which no document contains. A byte order mark takes no column.

- `Place.peek` looks ahead, `Place.next` and `Place.skip` move on
- `Place.takeWhile` and `Place.takeLineBreak` read on
-/

namespace Wireform.Document

/-- What is read beyond the last character. -/
def endMark : Char := '\x00'

/-- Whether `c` ends a line. -/
def isBreak (c : Char) : Bool :=
  c == '\n' || c == '\r' || c == '\x85' || c == '\u2028' || c == '\u2029'

/-- Whether `c` ends a line or the document. -/
def endsLine (c : Char) : Bool := c == endMark || isBreak c

/-- Whether `c` is a space or ends a line or the document. -/
def endsWord (c : Char) : Bool := c == ' ' || endsLine c

/-- Whether `c` is a space or a tab or ends a line or the document. -/
def endsMark (c : Char) : Bool := c == '\t' || endsWord c

/-- Whether `c` is a space or a tab. -/
def isGap (c : Char) : Bool := c == ' ' || c == '\t'

/-- A place in the text of a document. -/
structure Place where
  rest : List Char
  index : Nat := 0
  line : Nat := 0
  column : Nat := 0

namespace Place

/-- The character that is `ahead` characters further on. -/
def peek (place : Place) (ahead : Nat := 0) : Char :=
  place.rest.getD ahead endMark

/-- The place after one more character. -/
def next (place : Place) : Place :=
  match place.rest with
  | [] => place
  | c :: rest =>
      if isBreak c && !(c == '\r' && rest.head? == some '\n') then
        { rest, index := place.index + 1, line := place.line + 1, column := 0 }
      else
        { rest, index := place.index + 1, line := place.line
          column := if c == '\uFEFF' then place.column else place.column + 1 }

/-- The place after `count` more characters. -/
def skip (place : Place) : Nat → Place
  | 0 => place
  | count + 1 => place.next.skip count

/-- The characters from here on for which `test` holds, and the place after them. -/
def takeWhile (place : Place) (test : Char → Bool) : List Char × Place :=
  let taken := place.rest.takeWhile test
  (taken, place.skip taken.length)

/-- The place after the characters for which `test` holds. -/
def skipWhile (place : Place) (test : Char → Bool) : Place :=
  (place.takeWhile test).2

/-- The line break at this place, if there is one, and the place after it. The usual breaks all
read as a line feed. -/
def takeLineBreak (place : Place) : List Char × Place :=
  match place.rest with
  | '\r' :: '\n' :: _ => (['\n'], place.skip 2)
  | c :: _ =>
      if c == '\u2028' || c == '\u2029' then ([c], place.next)
      else if isBreak c then (['\n'], place.next)
      else ([], place)
  | [] => ([], place)

/-- Whether a document marker made of three of the given character stands here. -/
def atMarker (place : Place) (mark : Char) : Bool :=
  place.rest.take 3 == [mark, mark, mark] && endsMark (place.peek 3)

/-- Whether a document marker stands here. -/
def atAnyMarker (place : Place) : Bool :=
  place.atMarker '-' || place.atMarker '.'

end Place

end Wireform.Document
