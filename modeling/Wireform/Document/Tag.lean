import Wireform.Text.Numeral

/-!
# Tags and nodes

A tag says what a node of a document is. A scalar without quotes and without a tag has the tag that
its form implies: a truth value, a number, a date and so on, and text if it has none of these forms.
Everything is decided on ASCII characters. One line break at the very end of a scalar does not keep
it from having a form.

A document is a graph of nodes. A node that has an anchor can occur in several places, even inside
itself, so a collection holds the positions of its nodes and not the nodes.

- `Tag.ofUri` reads a tag, and `Tag.implied` is the tag of a plain scalar
- `Node` is a scalar, a sequence or a mapping
- `Document` is the table of the nodes, with the position of the outermost one
-/

namespace Wireform

namespace Document

/-- What a node of a document is. -/
inductive Tag where
  | null
  | truth
  | integer
  | fraction
  | binary
  | timestamp
  | orderedMapping
  | pairs
  | set
  | text
  | sequence
  | mapping
  /-- The key of entries that are merged into a mapping. -/
  | merge
  /-- The key of the value of a mapping that stands for a scalar. -/
  | value
  | other (uri : String)
  deriving DecidableEq, Repr

/-- The tag with a given name. -/
def Tag.ofUri (uri : String) : Tag :=
  match uri with
  | "tag:yaml.org,2002:null" => null
  | "tag:yaml.org,2002:bool" => truth
  | "tag:yaml.org,2002:int" => integer
  | "tag:yaml.org,2002:float" => fraction
  | "tag:yaml.org,2002:binary" => binary
  | "tag:yaml.org,2002:timestamp" => timestamp
  | "tag:yaml.org,2002:omap" => orderedMapping
  | "tag:yaml.org,2002:pairs" => pairs
  | "tag:yaml.org,2002:set" => set
  | "tag:yaml.org,2002:str" => text
  | "tag:yaml.org,2002:seq" => sequence
  | "tag:yaml.org,2002:map" => mapping
  | "tag:yaml.org,2002:merge" => merge
  | "tag:yaml.org,2002:value" => value
  | _ => other uri

/-! ### Forms of scalars -/

/-- An ASCII digit. -/
def isDigitChar (c : Char) : Bool := '0' ≤ c && c ≤ '9'

/-- A digit or an underscore. -/
def isSpacedDigit (c : Char) : Bool := isDigitChar c || c == '_'

/-- A digit, then digits and underscores. -/
def isSpacedNumber : List Char → Bool
  | [] => false
  | first :: rest => isDigitChar first && rest.all isSpacedDigit

/-- A text without its sign. -/
def dropSign : List Char → List Char
  | '+' :: rest => rest
  | '-' :: rest => rest
  | rest => rest

/-- The parts of a text between the occurrences of a character. -/
def splitAtChar (mark : Char) : List Char → List (List Char)
  | [] => [[]]
  | c :: rest =>
      match splitAtChar mark rest with
      | [] => [[c]]
      | first :: others => if c == mark then [] :: first :: others else (c :: first) :: others

/-- A part of a number in base sixty after the first: below sixty, in one or two digits. -/
def isSixtieth : List Char → Bool
  | [d] => isDigitChar d
  | [t, d] => '0' ≤ t && t ≤ '5' && isDigitChar d
  | _ => false

/-- A number in base sixty, its parts between colons. -/
def isSexagesimal (isFirst : List Char → Bool) (text : List Char) : Bool :=
  match splitAtChar ':' text with
  | first :: second :: others => isFirst first && (second :: others).all isSixtieth
  | _ => false

/-- A decimal number that does not start with a zero. -/
def isPositiveNumber (text : List Char) : Bool :=
  text.headD '0' != '0' && isSpacedNumber text

/-- The forms of integers without their signs. -/
def isUnsignedInteger (text : List Char) : Bool :=
  match text with
  | '0' :: 'b' :: digits => !digits.isEmpty && digits.all fun c => c == '0' || c == '1' || c == '_'
  | '0' :: 'x' :: digits =>
      !digits.isEmpty && digits.all fun c => Numeral.isBaseDigit 16 c || c == '_'
  | ['0'] => true
  | '0' :: digits => digits.all fun c => ('0' ≤ c && c ≤ '7') || c == '_'
  | _ => isPositiveNumber text || isSexagesimal isPositiveNumber text

/-- An exponent with its mark and its sign, or nothing. -/
def isExponent : List Char → Bool
  | [] => true
  | mark :: sign :: digits =>
      (mark == 'e' || mark == 'E') && (sign == '+' || sign == '-') && !digits.isEmpty
        && digits.all isDigitChar
  | _ => false

/-- The forms of fractions with a point. -/
def isPointed (text : List Char) : Bool :=
  let unsigned := dropSign text
  match unsigned.takeWhile (· != '.'), unsigned.dropWhile (· != '.') with
  | whole, '.' :: part =>
      (isSpacedNumber whole && isExponent (part.dropWhile isSpacedDigit))
        || (isSexagesimal isSpacedNumber whole && part.all isSpacedDigit)
        || (text.head? == some '.' && isDigitChar (part.headD ' ')
            && isExponent (part.dropWhile isSpacedDigit))
  | _, _ => false

/-- The forms of fractions, with those that are no numbers. -/
def isFraction (text : List Char) : Bool :=
  isPointed text
    || [".inf", ".Inf", ".INF"].contains (String.ofList (dropSign text))
    || [".nan", ".NaN", ".NAN"].contains (String.ofList text)

/-- The parts of a date, with a time if there is one. -/
structure Stamp where
  year : List Char
  month : List Char
  day : List Char
  /-- Hour, minute, second, the digits of the fraction, and the zone. -/
  time : Option (List Char × List Char × List Char × List Char × List Char)

/-- One or two digits at the start of a text, and the rest. -/
def oneOrTwoDigits? (text : List Char) : Option (List Char × List Char) :=
  match text with
  | a :: b :: rest =>
      if isDigitChar a then
        if isDigitChar b then some ([a, b], rest) else some ([a], b :: rest)
      else none
  | [a] => if isDigitChar a then some ([a], []) else none
  | [] => none

/-- Two digits at the start of a text, and the rest. -/
def twoDigits? (text : List Char) : Option (List Char × List Char) :=
  match text with
  | a :: b :: rest => if isDigitChar a && isDigitChar b then some ([a, b], rest) else none
  | _ => none

/-- The rest of a text after a character. -/
def after? (mark : Char) : List Char → Option (List Char)
  | c :: rest => if c == mark then some rest else none
  | [] => none

/-- Whether a text is the zone of a time. -/
def isZone (text : List Char) : Bool :=
  match text with
  | [] => true
  | ['Z'] => true
  | sign :: rest =>
      (sign == '+' || sign == '-') && match oneOrTwoDigits? rest with
        | none => false
        | some (_, []) => true
        | some (_, ':' :: minutes) => minutes.length == 2 && minutes.all isDigitChar
        | some _ => false

/-- The time of day after a date. -/
def timeOfDay? (text : List Char) :
    Option (List Char × List Char × List Char × List Char × List Char) := do
  let text ← match text with
    | 'T' :: rest => some rest
    | 't' :: rest => some rest
    | c :: rest =>
        if c == ' ' || c == '\t' then some (rest.dropWhile fun c => c == ' ' || c == '\t')
        else none
    | [] => none
  let (hour, text) ← oneOrTwoDigits? text
  let (minute, text) ← twoDigits? (← after? ':' text)
  let (second, text) ← twoDigits? (← after? ':' text)
  let (fraction, text) := match text with
    | '.' :: rest => (rest.takeWhile isDigitChar, rest.dropWhile isDigitChar)
    | rest => ([], rest)
  let zone := text.dropWhile fun c => c == ' ' || c == '\t'
  if isZone zone && (!zone.isEmpty || text.isEmpty) then some (hour, minute, second, fraction, zone)
  else none

/-- The parts of a text that has the form of a date or a moment. -/
def stamp? (text : List Char) : Option Stamp := do
  let year := text.take 4
  if year.length != 4 || !year.all isDigitChar then none
  let (month, text) ← oneOrTwoDigits? (← after? '-' (text.drop 4))
  let (day, text) ← oneOrTwoDigits? (← after? '-' text)
  if text.isEmpty then some ⟨year, month, day, none⟩
  else some ⟨year, month, day, some (← timeOfDay? text)⟩

/-- Whether a plain scalar has the form of a date or a moment. A date alone is written out. -/
def isStamp (text : List Char) : Bool :=
  match stamp? text with
  | none => false
  | some ⟨_, month, day, none⟩ => month.length == 2 && day.length == 2
  | some _ => true

/-- The words for truth and falsehood. -/
def truthWords : List String :=
  ["yes", "Yes", "YES", "no", "No", "NO", "true", "True", "TRUE", "false", "False", "FALSE",
   "on", "On", "ON", "off", "Off", "OFF"]

/-- The words for nothing. -/
def nullWords : List String := ["~", "null", "Null", "NULL"]

/-- A text without a line break at its end. -/
def dropFinalBreak (text : List Char) : List Char :=
  if text.getLast? == some '\n' then text.dropLast else text

/-- The tag that the form of a plain scalar implies. -/
def Tag.implied (scalar : String) : Tag :=
  let chars := dropFinalBreak scalar.toList
  let word := String.ofList chars
  if scalar.isEmpty || nullWords.contains word then .null
  else if truthWords.contains word then .truth
  else if isFraction chars then .fraction
  else if isUnsignedInteger (dropSign chars) then .integer
  else if word == "<<" then .merge
  else if isStamp chars then .timestamp
  else if word == "=" then .value
  else if ["!", "&", "*"].contains word then .other "tag:yaml.org,2002:yaml"
  else .text

/-! ### Nodes -/

/-- A node, with the positions of the nodes that it holds. -/
inductive Node where
  | scalar (tag : Tag) (text : String)
  | sequence (tag : Tag) (items : List Nat)
  | mapping (tag : Tag) (entries : List (Nat × Nat))
  deriving DecidableEq, Repr

/-- The tag of a node. -/
def Node.tag : Node → Tag
  | scalar tag _ => tag
  | sequence tag _ => tag
  | mapping tag _ => tag

/-- The node that stands where nothing is written. -/
def Node.empty : Node := scalar .null ""

end Document

/-- A document: its nodes, and the position of the outermost one. -/
structure Document where
  nodes : Array Document.Node
  root : Nat

/-- The node at a position. -/
def Document.node (document : Document) (position : Nat) : Document.Node :=
  document.nodes.getD position .empty

/-- The tag of the node at a position. -/
def Document.tag (document : Document) (position : Nat) : Document.Tag :=
  (document.node position).tag

end Wireform
