import Wireform.Document.Fault
import Wireform.Document.Place
import Wireform.Text.Numeral

/-!
# Scalar texts of a document

How the text of a scalar is read: quoted, plain or as a block of lines. Line breaks inside a quoted
or plain scalar fold into blanks, and those of a block are kept, folded or dropped as its header
says. Every reader takes at least one character at each step, so the number of characters bounds the
steps.

- `quotedScalar` reads on after an opening quote
- `plainScalar` reads a scalar without marks
- `blockScalar` reads the lines below a block header
-/

namespace Wireform.Document

/-! ### Quoted scalars -/

/-- The further line breaks in a quoted scalar; a document marker may not stand among them. -/
def quotedBreaks : Nat → Place → Except Fault (List Char × Place)
  | 0, _ => .error .malformed
  | fuel + 1, place =>
      if place.atAnyMarker then .error .malformed
      else
        let after := place.skipWhile isGap
        match after.takeLineBreak with
        | ([], _) => .ok ([], after)
        | (first, beyond) => do
            let (others, final) ← quotedBreaks fuel beyond
            return (first ++ others, final)

/-- The text for a line break and the breaks after it: one break folds into a blank. -/
def foldBreaks (first others : List Char) : List Char :=
  if first != ['\n'] then first ++ others
  else if others.isEmpty then [' ']
  else others

/-- The blanks and line breaks inside a quoted scalar. -/
def quotedGap (place : Place) : Except Fault (List Char × Place) :=
  let (blanks, after) := place.takeWhile isGap
  if after.peek == endMark then .error .malformed
  else match after.takeLineBreak with
    | ([], _) => .ok (blanks, after)
    | (first, beyond) => do
        let (others, final) ← quotedBreaks (beyond.rest.length + 1) beyond
        return (foldBreaks first others, final)

/-- The character for which a letter after a backslash stands. -/
def escapedChar? : Char → Option Char
  | '0' => some '\x00'
  | 'a' => some '\x07'
  | 'b' => some '\x08'
  | 't' => some '\t'
  | '\t' => some '\t'
  | 'n' => some '\n'
  | 'v' => some '\x0b'
  | 'f' => some '\x0c'
  | 'r' => some '\r'
  | 'e' => some '\x1b'
  | ' ' => some ' '
  | '"' => some '"'
  | '\\' => some '\\'
  | '/' => some '/'
  | 'N' => some '\x85'
  | '_' => some '\xa0'
  | 'L' => some '\u2028'
  | 'P' => some '\u2029'
  | _ => none

/-- How many hexadecimal digits follow a letter after a backslash. -/
def escapedDigits? : Char → Option Nat
  | 'x' => some 2
  | 'u' => some 4
  | 'U' => some 8
  | _ => none

/-- What a backslash and the characters after it stand for; `place` is after the backslash. -/
def quotedEscape (place : Place) : Except Fault (List Char × Place) :=
  match escapedChar? place.peek, escapedDigits? place.peek with
  | some c, _ => .ok ([c], place.next)
  | none, some count =>
      let digits := place.next.rest.take count
      if digits.length == count && digits.all (Numeral.isBaseDigit 16) then
        let code := Numeral.digitsValue 16 digits
        if code < 0x110000 then .ok ([Char.ofNat code], place.skip (count + 1))
        else if code < 0x80000000 then .error .codePoint
        else .error .codePointRange
      else .error .malformed
  | none, none =>
      match place.takeLineBreak with
      | ([], _) => .error .malformed
      | (_, beyond) => quotedBreaks (beyond.rest.length + 1) beyond

/-- The text of a quoted scalar from a place after its opening quote, and the place after it. -/
def quotedFrom (double : Bool) : Nat → Place → Except Fault (List Char × Place)
  | 0, _ => .error .malformed
  | fuel + 1, place =>
      let c := place.peek
      let goOn := fun (taken : List Char) (after : Place) => do
        let (others, final) ← quotedFrom double fuel after
        return (taken ++ others, final)
      if c == (if double then '"' else '\'') then
        if !double && place.peek 1 == '\'' then goOn ['\''] (place.skip 2)
        else .ok ([], place.next)
      else if double && c == '\\' then do
        let (taken, after) ← quotedEscape place.next
        goOn taken after
      else if endsMark c then do
        let (taken, after) ← quotedGap place
        goOn taken after
      else goOn [c] place.next

/-- The text of a quoted scalar, from its opening quote on. -/
def quotedScalar (double : Bool) (place : Place) : Except Fault (List Char × Place) :=
  quotedFrom double (place.rest.length + 1) place.next

/-! ### Plain scalars -/

/-- The characters with which a flow collection goes on or ends. -/
def isFlowMark (c : Char) : Bool :=
  c == ',' || c == '[' || c == ']' || c == '{' || c == '}'

/-- The part of a plain scalar up to a blank, a line break or a mark. -/
def plainWord (inFlow : Bool) : List Char → List Char
  | [] => []
  | c :: rest =>
      let following := rest.headD endMark
      if endsMark c
        || (c == ':' && (endsMark following || (inFlow && isFlowMark following)))
        || (inFlow && (isFlowMark c || c == '?')) then []
      else c :: plainWord inFlow rest

/-- The line breaks and indentation after the first line break in a plain scalar. Nothing is
returned where a document marker follows. -/
def plainBreaks : Nat → Place → Option (List Char) × Place
  | 0, place => (some [], place)
  | fuel + 1, place =>
      if place.peek == ' ' then plainBreaks fuel place.next
      else match place.takeLineBreak with
        | ([], _) => (some [], place)
        | (first, beyond) =>
            if beyond.atAnyMarker then (none, beyond)
            else
              let (others, final) := plainBreaks fuel beyond
              (others.map (first ++ ·), final)

/-- The blanks and line breaks between two words of a plain scalar, the place after them, and
whether there was a line break. There are none where the scalar ends. -/
def plainGap (place : Place) : List Char × Place × Bool :=
  let (blanks, after) := place.takeWhile (· == ' ')
  match after.takeLineBreak with
  | ([], _) => (blanks, after, false)
  | (first, beyond) =>
      if beyond.atAnyMarker then ([], beyond, true)
      else match plainBreaks (beyond.rest.length + 1) beyond with
        | (none, final) => ([], final, true)
        | (some others, final) => (foldBreaks first others, final, true)

/-- The text of a plain scalar, the place after it, and whether a line break follows its text.
`indent` is the least column of its further lines, and `gap` what separates it from before. -/
def plainFrom (inFlow : Bool) (indent : Int) (gap : List Char) (broken : Bool) :
    Nat → Place → List Char × Place × Bool
  | 0, place => ([], place, broken)
  | fuel + 1, place =>
      let word := if place.peek == '#' then [] else plainWord inFlow place.rest
      if word.isEmpty then ([], place, broken)
      else
        let (space, after, wrapped) := plainGap (place.skip word.length)
        if space.isEmpty || after.peek == '#' || (!inFlow && after.column < indent) then
          (gap ++ word, after, wrapped)
        else
          let (others, final, ended) := plainFrom inFlow indent space wrapped fuel after
          (gap ++ word ++ others, final, ended)

/-- The text of a plain scalar, the place after it, and whether a line break follows its text. -/
def plainScalar (inFlow : Bool) (indent : Int) (place : Place) : List Char × Place × Bool :=
  plainFrom inFlow indent [] false (place.rest.length + 1) place

/-! ### Block scalars -/

/-- What becomes of the line breaks at the end of a block. -/
inductive Chomping where
  | strip
  | clip
  | keep
  deriving DecidableEq, Repr

/-- The chomping that a sign asks for. -/
def Chomping.ofSign? : Char → Option Chomping
  | '+' => some .keep
  | '-' => some .strip
  | _ => none

/-- The indentation that a digit asks for. -/
def indentDigit? (c : Char) : Option Nat :=
  if '0' ≤ c ∧ c ≤ '9' then some (c.toNat - '0'.toNat) else none

/-- The header of a block: how it is chomped, and its indentation where that is given. -/
def blockHeader (place : Place) : Except Fault (Chomping × Option Nat × Place) :=
  let (chomping, digit, after) :=
    match Chomping.ofSign? place.peek, indentDigit? place.peek with
    | some sign, _ =>
        match indentDigit? (place.peek 1) with
        | some digit => (sign, some digit, place.skip 2)
        | none => (sign, none, place.next)
    | none, some digit =>
        match Chomping.ofSign? (place.peek 1) with
        | some sign => (sign, some digit, place.skip 2)
        | none => (.clip, some digit, place.next)
    | none, none => (.clip, none, place)
  if digit == some 0 || !endsWord after.peek then .error .malformed
  else .ok (chomping, digit, after)

/-- Moves over blanks and a comment to the next line. -/
def skipLineEnd (place : Place) : Except Fault Place :=
  let spaced := place.skipWhile (· == ' ')
  let after := if spaced.peek == '#' then spaced.skipWhile (!endsLine ·) else spaced
  if endsLine after.peek then .ok after.takeLineBreak.2 else .error .malformed

/-- The empty lines before the first line of a block, the greatest column of their blanks, and the
place after them. -/
def leadingBreaks (widest : Nat) : Nat → Place → List Char × Nat × Place
  | 0, place => ([], widest, place)
  | fuel + 1, place =>
      if place.peek == ' ' then leadingBreaks (max widest place.next.column) fuel place.next
      else match place.takeLineBreak with
        | ([], _) => ([], widest, place)
        | (first, beyond) =>
            let (others, final, after) := leadingBreaks widest fuel beyond
            (first ++ others, final, after)

/-- Moves over blanks up to a column. -/
def skipIndent (indent : Nat) : Nat → Place → Place
  | 0, place => place
  | fuel + 1, place =>
      if place.column < indent && place.peek == ' ' then skipIndent indent fuel place.next
      else place

/-- The empty lines before a line of a block, and the place after its indentation. -/
def blockBreaks (indent : Nat) : Nat → Place → List Char × Place
  | 0, place => ([], place)
  | fuel + 1, place =>
      let after := skipIndent indent indent place
      match after.takeLineBreak with
      | ([], _) => ([], after)
      | (first, beyond) =>
          let (others, final) := blockBreaks indent fuel beyond
          (first ++ others, final)

/-- The lines of a block from a place in its first line on: the text without its last line break,
that break, the empty lines after it, and the place after them. `breaks` are the empty lines
before. -/
def blockLines (folded : Bool) (indent : Nat) (breaks : List Char) :
    Nat → Place → List Char × List Char × List Char × Place
  | 0, place => ([], [], breaks, place)
  | fuel + 1, place =>
      let (line, lineEnd) := place.takeWhile (!endsLine ·)
      let (lineBreak, beyond) := lineEnd.takeLineBreak
      let (others, after) := blockBreaks indent (beyond.rest.length + 1) beyond
      if after.column == indent && after.peek != endMark then
        let joint :=
          if folded && lineBreak == ['\n'] && !isGap place.peek && !isGap after.peek then
            (if others.isEmpty then [' '] else [])
          else lineBreak
        let (text, final) := blockLines folded indent others fuel after
        (breaks ++ line ++ joint ++ text, final)
      else (breaks ++ line, lineBreak, others, after)

/-- The text of a block scalar from its mark on, and the place after it. `indent` is the column of
the block around it. -/
def blockScalar (folded : Bool) (indent : Int) (place : Place) :
    Except Fault (List Char × Place) := do
  let (chomping, digit, header) ← blockHeader place.next
  let start ← skipLineEnd header
  let least := max 1 (indent + 1).toNat
  let fuel := start.rest.length + 1
  let (breaks, column, first) := match digit with
    | none =>
        let (breaks, widest, after) := leadingBreaks 0 fuel start
        (breaks, max least widest, after)
    | some digit =>
        let column := least + digit - 1
        let (breaks, after) := blockBreaks column fuel start
        (breaks, column, after)
  let (text, lineBreak, trailing, after) :=
    if first.column == column && first.peek != endMark then
      blockLines folded column breaks fuel first
    else ([], [], breaks, first)
  let tail := match chomping with
    | .strip => []
    | .clip => lineBreak
    | .keep => lineBreak ++ trailing
  return (text ++ tail, after)

end Wireform.Document
