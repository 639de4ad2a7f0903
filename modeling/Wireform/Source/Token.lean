import Wireform.Text.Quoted

/-!
# Tokens and faults of a type definition file

The words of a type definition file. A dimension is one token, from bracket to bracket, and its
value is the text between the brackets without the blanks around it. A list of tokens ends with an
end token on the last line.

What is wrong with the text of a file is reported with its line. The only fault without a line is
that of a token list that stops before its end token.
-/

namespace Wireform

open Text (quote)

/-! ### Tokens -/

/-- What a token is. -/
inductive TokenKind where
  | keyword
  | identifier
  | number
  | symbol
  | dimension
  | endOfText
  deriving DecidableEq, Repr

/-- Every kind of token. -/
def TokenKind.all : List TokenKind := [keyword, identifier, number, symbol, dimension, endOfText]

/-- The word by which messages know a kind of token. -/
def TokenKind.label : TokenKind → String
  | keyword => "KEYWORD"
  | identifier => "IDENT"
  | number => "NUMBER"
  | symbol => "SYMBOL"
  | dimension => "DIM"
  | endOfText => "EOF"

/-- A word of a type definition file and the line on which it starts. -/
structure Token where
  kind : TokenKind
  value : String
  line : Nat
  deriving DecidableEq, Repr

/-- A token of a kind and a value, on any line. -/
def Token.Is (token : Token) (kind : TokenKind) (value : String) : Prop :=
  token.kind = kind ∧ token.value = value

instance (token : Token) (kind : TokenKind) (value : String) : Decidable (token.Is kind value) :=
  inferInstanceAs (Decidable (_ ∧ _))

/-- The words that are keywords wherever they stand alone. -/
def keywords : List String := ["package", "struct"]

/-! ### Faults -/

/-- A breach of the form of type definition files. -/
inductive SourceCause where
  | unterminatedComment
  | unterminatedDimension
  | malformedName (word : String)
  | unexpectedCharacter (character : Char)
  | wrongKind (expected : TokenKind) (value : Option String) (found : Token)
  | wrongValue (expected found : String)
  | notADefinition (found : String)
  | misplacedPackage
  | qualifiedStruct (name : String)
  | unterminatedStruct (name : String)
  | emptyStruct (name : String)
  | qualifiedMember (name : String)
  | invalidDimension (text : String)
  deriving DecidableEq, Repr

/-- The wording of a cause. A wanted value shows only when it is not empty. -/
def SourceCause.message : SourceCause → String
  | unterminatedComment => "unterminated block comment"
  | unterminatedDimension => "unterminated dimension"
  | malformedName word => "malformed name " ++ quote word
  | unexpectedCharacter character => "unexpected character '" ++ character.toString ++ "'"
  | wrongKind expected value found =>
      let wanted := match value with
        | some text => if text.isEmpty then "" else " " ++ quote text
        | none => ""
      "expected " ++ expected.label ++ wanted ++ ", got " ++ found.kind.label ++ " "
        ++ quote found.value
  | wrongValue expected found => "expected " ++ quote expected ++ ", got " ++ quote found
  | notADefinition found => "expected 'package' or 'struct', got " ++ quote found
  | misplacedPackage => "'package' must come once, before any struct"
  | qualifiedStruct name => "struct name " ++ quote name ++ " must not be qualified"
  | unterminatedStruct name => "unterminated struct " ++ quote name
  | emptyStruct name => "struct " ++ quote name ++ " has no members"
  | qualifiedMember name => "invalid member name " ++ quote name
  | invalidDimension text => "invalid dimension [" ++ text ++ "]"

/-- Why a type definition file is not read. -/
inductive SourceFault where
  /-- The text breaks a rule at a line. -/
  | atLine (line : Nat) (cause : SourceCause)
  /-- The tokens stop where one more was needed. -/
  | pastEnd
  deriving DecidableEq, Repr

/-- The wording of a fault. -/
def SourceFault.message : SourceFault → String
  | atLine line cause => "Line " ++ toString line ++ ": " ++ cause.message
  | pastEnd => "list index out of range"

end Wireform
