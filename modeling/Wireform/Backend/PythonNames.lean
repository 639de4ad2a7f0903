import Wireform.Backend.Layout
import Wireform.Text.Digit
import Wireform.Text.Quoted

/-!
# Names that a generated Python module can bear

A class of a generated module must not be a keyword, hide a name that the generated code uses, or
share its name with another class; a member must not be a keyword or an attribute that every
generated class has.

- `checkNames` reports the first name of a schema that a module cannot bear
-/

namespace Wireform.Backend

open Text (quote isDecimal)

/-- The keywords of Python. -/
def pythonKeywords : List String :=
  ["False", "None", "True", "and", "as", "assert", "async", "await", "break", "class", "continue",
   "def", "del", "elif", "else", "except", "finally", "for", "from", "global", "if", "import", "in",
   "is", "lambda", "nonlocal", "not", "or", "pass", "raise", "return", "try", "while", "with",
   "yield"]

/-- The packer that a generated module defines for a primitive. There is none for strings. -/
def packer? : Primitive → Option String
  | .int8 => some "_INT8"
  | .int16 => some "_INT16"
  | .uint16 => some "_UINT16"
  | .int32 => some "_INT32"
  | .uint32 => some "_UINT32"
  | .int64 => some "_INT64"
  | .byte => some "_BYTE"
  | .float => some "_FLOAT"
  | .double => some "_DOUBLE"
  | .boolean => some "_BOOLEAN"
  | .string => none

/-- The packers of a generated module. -/
def packerNames : List String := Primitive.all.filterMap packer?

/-- The globals, builtins, parameters and locals to which generated code refers. -/
def usedNames : List String :=
  ["struct", "_FINGERPRINT", "_MASK64", "__all__",
   "_encode_value", "_decode_value", "_string_size", "_encode_string", "_decode_string",
   "buf", "pos", "maxlen", "msg", "msgs", "elems", "ix", "fingerprint", "size",
   "data", "cls", "self", "other", "fields", "s", "parents", "tmphash", "_v", "_",
   "object", "range", "len", "min", "all", "bytes", "getattr", "isinstance", "type",
   "staticmethod", "classmethod", "ValueError", "UnicodeDecodeError", "NotImplemented"]
    ++ packerNames

/-- The attributes of every generated class. -/
def classAttributes : List String :=
  ["encode", "encode_into", "encoded_size", "decode", "decode_from",
   "_hash", "_get_hash", "_compute_hash",
   "_encode_nohash", "_decode_nohash", "_encoded_size_nohash"]

/-- Whether a text is a row of one or more decimal digits, with at most a line break after it. -/
def isCounter (text : List Char) : Bool :=
  match text.dropWhile isDecimal with
  | [] => !text.isEmpty
  | ['\n'] => text.length > 1
  | _ => false

/-- Whether a name is that of a loop counter or of a list under construction. -/
def isLoopName (name : String) : Bool :=
  match name.toList with
  | 'd' :: counter => isCounter counter
  | '_' :: 't' :: counter => isCounter counter
  | _ => false

/-- Why a schema has no Python module. -/
inductive NameFault where
  | classKeyword (struct : String)
  | classClash (struct : String)
  | classTwice (struct earlier : String)
  | memberKeyword (struct member : String)
  | memberClash (struct member : String)
  deriving DecidableEq, Repr

/-- The wording of a fault. -/
def NameFault.message : NameFault → String
  | classKeyword struct =>
      struct ++ ": class name " ++ quote (flatName struct) ++ " is a Python keyword"
  | classClash struct =>
      struct ++ ": class name " ++ quote (flatName struct)
        ++ " clashes with a name used by generated code"
  | classTwice struct earlier =>
      struct ++ ": class name " ++ quote (flatName struct) ++ " already used by " ++ earlier
  | memberKeyword struct member => struct ++ "." ++ member ++ ": member name is a Python keyword"
  | memberClash struct member =>
      struct ++ "." ++ member ++ ": member name clashes with a generated method"

/-- Checks the name of one member. -/
def checkMemberName (struct : String) (member : Member) : Except NameFault Unit :=
  if pythonKeywords.contains member.name then .error (.memberKeyword struct member.name)
  else if classAttributes.contains member.name then .error (.memberClash struct member.name)
  else .ok ()

/-- Checks the class name of one struct against the names of the structs before it. -/
def checkClassName (earlier : List String) (struct : String) : Except NameFault Unit :=
  if pythonKeywords.contains (flatName struct) then .error (.classKeyword struct)
  else if usedNames.contains (flatName struct) || isLoopName (flatName struct) then
    .error (.classClash struct)
  else match earlier.find? (flatName · == flatName struct) with
    | some other => .error (.classTwice struct other)
    | none => .ok ()

/-- Checks the names of some structs, `earlier` being the names of those already checked. -/
def checkNames (earlier : List String) : List Struct → Except NameFault Unit
  | [] => .ok ()
  | struct :: rest => do
      checkClassName earlier struct.name
      struct.members.forM (checkMemberName struct.name)
      checkNames (earlier ++ [struct.name]) rest

end Wireform.Backend
