import Wireform.Source.Token
import Wireform.Text.Digit
import Wireform.Text.Letter

/-!
# From text to tokens

The text of a type definition file is read from left to right in steps. A step at some text either
skips a line break, a blank or a comment, or finds a token, or meets a fault; it always leaves less
text to read. Names may be dotted, and a name or number takes in as many characters as it can.

- `scan` is one step, and `length_rest_lt_of_scan` says that it leaves less text
- `tokenize` is the list of tokens of a text
-/

namespace Wireform.Source

open Wireform.Text

/-- What one step finds at the start of a text, with what is left after it. -/
inductive Scan where
  | skip (line : Nat) (rest : List Char)
  | token (token : Token) (rest : List Char)
  | fault (fault : SourceFault)

/-- The text left after a step. -/
def Scan.rest : Scan → List Char
  | skip _ rest => rest
  | token _ rest => rest
  | fault _ => []

/-- The text up to the end of a block comment, and the text after it. -/
def splitComment : List Char → Option (List Char × List Char)
  | '*' :: '/' :: after => some ([], after)
  | c :: rest => (splitComment rest).map fun (body, after) => (c :: body, after)
  | [] => none

/-- The characters that are tokens by themselves. -/
def isSymbol (c : Char) : Bool := c == '{' || c == '}' || c == ';' || c == ','

/-- The characters that begin a name. -/
def isNameStart (c : Char) : Bool := isLetter c || c == '_'

/-- The characters that go on in a dotted name. -/
def isNamePart (c : Char) : Bool := isWordChar c || c == '_' || c == '.'

/-- Whether a name has a dot at its end or before another dot. -/
def hasDanglingDot : List Char → Bool
  | [] => false
  | ['.'] => true
  | '.' :: '.' :: _ => true
  | _ :: rest => hasDanglingDot rest

/-- The token of a word. -/
def wordToken (line : Nat) (word : String) : Token :=
  ⟨if keywords.contains word then .keyword else .identifier, word, line⟩

/-- The step at a text that starts with neither a line break, a blank, a comment nor a bracket. -/
def scanWord (line : Nat) (c : Char) (rest : List Char) : Scan :=
  if isSymbol c then .token ⟨.symbol, c.toString, line⟩ rest
  else if isDigit c then
    .token ⟨.number, String.ofList (c :: rest.takeWhile isDigit), line⟩ (rest.dropWhile isDigit)
  else if isNameStart c then
    let word := c :: rest.takeWhile isNamePart
    if hasDanglingDot word then .fault (.atLine line (.malformedName (String.ofList word)))
    else .token (wordToken line (String.ofList word)) (rest.dropWhile isNamePart)
  else .fault (.atLine line (.unexpectedCharacter c))

/-- The step at an opening bracket, `rest` being the text after it. -/
def scanDimension (line : Nat) (rest : List Char) : Scan :=
  let raw := rest.takeWhile (· != ']')
  match rest.dropWhile (· != ']') with
  | [] => .fault (.atLine line .unterminatedDimension)
  | _ :: after =>
      if raw.contains '\n' then .fault (.atLine line .unterminatedDimension)
      else .token ⟨.dimension, String.ofList (strip raw), line⟩ after

/-- One step at the text `c :: rest`. -/
def scan (line : Nat) (c : Char) (rest : List Char) : Scan :=
  if c = '\n' then .skip (line + 1) rest
  else if c = ' ' ∨ c = '\t' ∨ c = '\r' then .skip line rest
  else match c, rest with
    | '/', '/' :: after => .skip line (after.dropWhile (· != '\n'))
    | '/', '*' :: after =>
        match splitComment after with
        | none => .fault (.atLine line .unterminatedComment)
        | some (body, left) => .skip (line + body.count '\n') left
    | '[', after => scanDimension line after
    | c, after => scanWord line c after

/-- What follows a comment is shorter than the text that holds it. -/
theorem length_lt_of_splitComment {text body after : List Char}
    (h : splitComment text = some (body, after)) : after.length < text.length := by
  fun_induction splitComment text generalizing body after with
  | case1 rest =>
      obtain ⟨rfl, rfl⟩ := Prod.mk.inj (Option.some.inj h)
      simp only [List.length_cons]
      omega
  | case2 c rest _ ih =>
      obtain ⟨⟨inner, left⟩, hinner, hpair⟩ := Option.map_eq_some_iff.1 h
      obtain ⟨rfl, rfl⟩ := Prod.mk.inj hpair
      have := ih hinner
      simp only [List.length_cons]
      omega
  | case3 => simp at h

private theorem length_rest_lt_of_scanWord (line : Nat) (c : Char) (rest : List Char) :
    (scanWord line c rest).rest.length < (c :: rest).length := by
  have hdigit : (rest.dropWhile isDigit).length ≤ _ := (List.dropWhile_sublist isDigit).length_le
  have hname : (rest.dropWhile isNamePart).length ≤ _ :=
    (List.dropWhile_sublist isNamePart).length_le
  unfold scanWord
  simp only
  repeat' split
  all_goals simp only [Scan.rest, List.length_cons, List.length_nil]
  all_goals omega

private theorem length_rest_le_of_scanDimension (line : Nat) (rest : List Char) :
    (scanDimension line rest).rest.length ≤ rest.length := by
  have hclose : (rest.dropWhile (· != ']')).length ≤ _ := (List.dropWhile_sublist _).length_le
  unfold scanDimension
  simp only
  split
  · simp [Scan.rest]
  · next after hafter =>
      rw [hafter, List.length_cons] at hclose
      split
      · simp [Scan.rest]
      · simp only [Scan.rest]
        omega

/-- A step leaves less text than it was given. -/
theorem length_rest_lt_of_scan (line : Nat) (c : Char) (rest : List Char) :
    (scan line c rest).rest.length < (c :: rest).length := by
  unfold scan
  split
  · simp [Scan.rest]
  · split
    · simp [Scan.rest]
    · split
      · next after _ _ =>
          have : (after.dropWhile (· != '\n')).length ≤ _ := (List.dropWhile_sublist _).length_le
          simp only [Scan.rest, List.length_cons]
          omega
      · next after =>
          split
          · simp [Scan.rest]
          · next body left hsplit =>
              have := length_lt_of_splitComment hsplit
              simp only [Scan.rest, List.length_cons]
              omega
      · have := length_rest_le_of_scanDimension line rest
        simp only [List.length_cons]
        omega
      · exact length_rest_lt_of_scanWord line _ _

/-- The tokens of a text whose first character stands on `line`. -/
def tokenizeFrom (line : Nat) (text : List Char) : Except SourceFault (List Token) :=
  match text with
  | [] => .ok [⟨.endOfText, "", line⟩]
  | c :: rest =>
      match _hscan : scan line c rest with
      | .skip next after => tokenizeFrom next after
      | .token token after =>
          match tokenizeFrom line after with
          | .error fault => .error fault
          | .ok tokens => .ok (token :: tokens)
      | .fault fault => .error fault
termination_by text.length
decreasing_by
  all_goals
    have := length_rest_lt_of_scan line c rest
    rw [_hscan] at this
    exact this

/-- The tokens of a text. -/
def tokenize (text : String) : Except SourceFault (List Token) :=
  tokenizeFrom 1 text.toList

end Wireform.Source
